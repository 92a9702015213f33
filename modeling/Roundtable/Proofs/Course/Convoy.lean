import Roundtable.Proofs.Course.Likeness
import Roundtable.Proofs.Course.Stock
import Roundtable.Proofs.Store.Twins

/-!
# Runs side by side

Runs under different ids share one queue and one store, and move in any order
(`Roundtable.Convoy.Travels`). **None of them disturbs another**
(`Roundtable.Convoy.undisturbed`): each asks, is told, decides and records what it would have
alone, with the same moves in the same order and without those of the others between them.
Only the numbers of its deliveries and the incarnation of its topic are not the same.

What is carried along for each run (`Roundtable.Journey.Undisturbed`) is that it is on its
track, that it is like the run alone but for those numbers, that the store holds of it what a
store of its own would hold, and that its topic is gone once it is over. A move of its own
keeps this by likeness; a move of another run keeps it because it spares the topic and the
records of this one.
-/

namespace Roundtable

/-- Runs of two ids have two topics. -/
theorem RunId.topic_injective : Function.Injective topic :=
  fun _ _ h => RunId.eq_of_text ((String.append_left_inj ".tasks").mp h)

namespace Journey

variable {j j' j₀ j₁ : Journey} {f : Nat → Nat} {n : Nat} {ms : List Move} {own s s' : Store}
  {run : RunId} {q : Queue Task}

/-! ### What is seen of a run -/

/-- **What is seen of a run**: what it asked and was answered, what it told, the state it has
come to, and what it does next. -/
structure Sight where
  calls : List Call
  notices : List Notice
  state : RunState
  stage : CourseStage

/-- What is seen of a run so far. -/
def sight (j : Journey) : Sight := ⟨j.calls, j.notices, j.course.state, j.course.stage⟩

theorem Like.sight (h : Like f n j j₁) : j.sight = j₁.sight := by
  rw [Journey.sight, h.calls, h.notices, h.course]
  rfl

/-- What waits for a run waits for one that is alike, under another number. -/
theorem Like.stocked (h : Like f n j j₁) (hs : j₁.Stocked) : j.Stocked := by
  have hplanned {a : Task} (ha : j₁.Planned a) : j.Planned a := by
    obtain ⟨c, hc, htasks⟩ := ha
    exact ⟨c, h.calls ▸ hc, htasks⟩
  refine ⟨fun e he => ?_, fun rest hrest a ha => ?_⟩
  · rw [h.topic, h.messages] at he
    obtain ⟨e₁, he₁, rfl⟩ := List.mem_map.mp he
    obtain ⟨htopic, htasks⟩ := hs.messages e₁ he₁
    exact ⟨htopic.trans h.topic.symm, fun a ha => hplanned (htasks a ha)⟩
  · exact hplanned (hs.tasks rest (h.stage.symm.trans hrest) a ha)

/-- **A run that is over has taken its topic away.** -/
theorem current?_of_over {m : Move} (ht : j.OnTrack) (hm : j.move? m = some j')
    (hover : j'.course.isOver = true) : j'.queue.current? j'.topic = none := by
  rw [Course.isOver_iff] at hover
  -- Who works, works for a run that is under way.
  have hworking {k : Nat} {w : PoolWorker} (hw : j.course.pool.workers[k]? = some w)
      (hg : w.stage.isGone = false) (hsame : j'.course.stage = j.course.stage) : False := by
    rw [hsame] at hover
    rcases ht.manned.working hw hg with ⟨left, hs⟩ | hs <;> cases hs.symm.trans hover
  cases m with
  | own m =>
    obtain ⟨c, q, ns, hstride, rfl⟩ := move?_own.mp hm
    cases hstride with
    | leave => exact Queue.current?_remove_self
    | publish | published | dismiss | dismissed | hire | hired | drained => cases hover
  | work i now =>
    obtain ⟨p, q, ns, hstep, rfl⟩ := move?_work.mp hm
    obtain ⟨w, -, hw, hg, -⟩ := (Pool.turn_of_step? hstep).worker
    exact (hworking hw hg rfl).elim
  | delegated i r =>
    obtain ⟨d, hd, rfl⟩ := move?_delegated.mp hm
    obtain ⟨w, a, hw, hs⟩ := Pool.delegating?_eq_some hd
    exact (hworking hw (by rw [hs]; rfl) rfl).elim
  | lost i =>
    obtain ⟨d, hd, rfl⟩ := move?_lost.mp hm
    obtain ⟨w, a, hw, hs⟩ := Pool.delegating?_eq_some hd
    exact (hworking hw (by rw [hs]; rfl) rfl).elim
  | answered a m =>
    obtain ⟨r, c, ns, hreply, rfl⟩ := reply_of_move? hm
    change c.stage = .over at hover
    cases hreply with
    | recorded | continued =>
      obtain ⟨-, hst⟩ | ⟨-, hst⟩ := j.course.stage_beginRound m <;> cases hst.symm.trans hover
    | recalled | planned | proceeds | stops | completed | refused | failed => cases hover

end Journey

/-! ### Mandates -/

/-- **What a run is called with.** Its rounds are counted in a word. -/
structure Mandate where
  run : RunId
  mission : String
  workers : Nat
  limit : Nat
  bounded : limit < 2 ^ 32
  delegation : Delegation
  now : Instant

namespace Mandate

/-- The run sets out on a queue, or is refused on the spot. -/
def embark (e : Mandate) (q : Queue Task) : Except CourseFault Journey :=
  Journey.embark e.run e.mission e.workers e.limit e.delegation e.now q

/-- On which queue a run sets out makes no difference to it. -/
theorem embark_onto (e : Mandate) (q q' : Queue Task) :
    (e.embark q).map (·.onto q') = e.embark q' := by
  unfold embark Journey.embark
  cases Course.begin e.run e.mission e.workers e.limit e.delegation e.now <;> rfl

/-- A run that sets out on an empty queue is on its track, and nothing is left behind. -/
theorem fresh {e : Mandate} {j₀ : Journey} (h : e.embark .empty = .ok j₀) :
    j₀.OnTrack ∧ j₀.Residue [] ∧ j₀.Stocked :=
  ⟨Journey.OnTrack.embark (Queue.Reachable.sound .refl) e.bounded h,
    Journey.residue_of_embark ⟨rfl, rfl⟩ h, Journey.stocked_of_embark rfl h⟩

end Mandate

/-! ### One run among others -/

namespace Journey

/-- **The run is undisturbed**: it stands where the run alone stands after the same moves, and
the store has answered it as its own store would have. -/
structure Undisturbed (j₀ : Journey) (own : Store) (ms : List Move) (j : Journey) (s : Store) :
    Prop where
  onTrack : j.OnTrack
  alike : ∃ f n j₁, j₀.moves? ms = some j₁ ∧ Like f n j j₁
  served : ∃ s₁, own.Serves j.course.run j.calls s₁ ∧ s.Twins j.course.run s₁
  gone : j.course.isOver = true → j.queue.current? j.topic = none

/-- A run is undisturbed at its outset, where its name is not in use. -/
theorem undisturbed_of_embark {e : Mandate} (hq : q.Sound) (hnew : q.current? e.run.topic = none)
    (hs : s.Twins e.run own) (h : e.embark q = .ok j) (h₀ : e.embark .empty = .ok j₀) :
    Undisturbed j₀ own [] j s := by
  have ht := OnTrack.embark hq e.bounded h
  rw [← e.embark_onto q, h] at h₀
  obtain rfl := Except.ok.inj h₀
  obtain ⟨-, -, ns, rfl⟩ := embark_eq_ok h
  refine ⟨ht, ⟨id, 0, _, rfl, rfl, ?_, rfl, rfl⟩, ⟨own, .nil, hs⟩, fun _ => hnew⟩
  exact Queue.topicOf_of_none hnew

/-- **A move of the run** leaves it undisturbed, and spares the topics of the others. -/
theorem Undisturbed.move {m : Move} {new : Option Call} (h : Undisturbed j₀ own ms j s)
    (ht₀ : j₀.OnTrack) (hr₀ : j₀.Residue []) (hm : j.move? m = some j')
    (hc : j'.calls = j.calls ++ new.toList) (hs : s.Serves j.course.run new.toList s') :
    Undisturbed j₀ own (ms ++ [m]) j' s' ∧
      ∀ other, other ≠ j.topic → j.queue.Spares j'.queue other := by
  obtain ⟨f, n, j₁, hms, hlike⟩ := h.alike
  obtain ⟨s₁, hserves, htwins⟩ := h.served
  have hreach : j₀.Reaches Move.IsAny j₁ := Reaches.of_moves? (fun _ _ => trivial) hms
  have ht₁ := ht₀.reaches hreach
  obtain ⟨gone, -, hr₁⟩ := hr₀.moves ht₀ hms
  obtain ⟨f', n', j₁', hm₁, hlike'⟩ := hlike.move h.onTrack ht₁ hr₁ hm
  obtain ⟨s₁', hserves', htwins'⟩ := htwins.serves hs
  have hrun : j'.course.run = j.course.run := (sameRun_of_move? hm).runId
  refine ⟨⟨(h.onTrack.move hm).1, ⟨f', n', j₁', ?_, hlike'⟩, ⟨s₁', ?_, ?_⟩,
    current?_of_over h.onTrack hm⟩, fun other hne => hlike.spares h.onTrack ht₁ hr₁ hm hne⟩
  · rw [moves?_append, hms]
    simp [moves?, hm₁]
  · rw [hrun, hc]
    exact hserves.append hserves'
  · rw [hrun]
    exact htwins'

/-- **What another run does** leaves the run undisturbed. -/
theorem Undisturbed.onto {calls : List Call} (h : Undisturbed j₀ own ms j s) (hq : q.Sound)
    (hsp : j.queue.Spares q j.topic) (hne : run ≠ j.course.run) (hs : s.Serves run calls s') :
    Undisturbed j₀ own ms (j.onto q) s' := by
  obtain ⟨f, n, j₁, hms, hlike⟩ := h.alike
  obtain ⟨s₁, hserves, htwins⟩ := h.served
  exact ⟨h.onTrack.onto hq hsp, ⟨f, n, j₁, hms, hlike.onto hsp⟩,
    ⟨s₁, hserves, htwins.serves_foreign hne hs⟩,
    fun hover => hsp.current.trans (h.gone hover)⟩

end Journey

/-! ### Convoys -/

open Journey

/-- **Runs on one queue and one store**: each of them was refused on the spot or is on its
way. -/
structure Convoy (ι : Type) where
  queue : Queue Task
  store : Store
  legs : ι → Except CourseFault Journey

namespace Convoy

variable {ι : Type}

/-- The leg of a run: where it is on its way, on the queue that all share. -/
def leg (v : Convoy ι) (k : ι) : Except CourseFault Journey := (v.legs k).map (·.onto v.queue)

/-- The run has returned: it was refused, or it has come to its end. -/
def Returned (v : Convoy ι) (k : ι) : Prop := ∀ j, v.leg k = .ok j → j.course.isOver = true

/-- **How a run fares** in a convoy: it was refused, and alone it would have been too, or it
is undisturbed. -/
inductive Fares (run : RunId) (own : Store) (v : Convoy ι) :
    Except CourseFault Journey → List Move → Except CourseFault Journey → Prop
  | refused {e : CourseFault} (hn : v.queue.current? run.topic = none)
      (hs : v.store.Twins run own) : Fares run own v (.error e) [] (.error e)
  | onWay {j₀ j : Journey} {ms : List Move} (hq : j.queue = v.queue) (hr : j.course.run = run)
      (h : Undisturbed j₀ own ms j v.store) : Fares run own v (.ok j₀) ms (.ok j)

theorem Fares.exists_start {run : RunId} {own : Store} {v : Convoy ι} {ms : List Move} {j : Journey}
    {start : Except CourseFault Journey} (h : Fares run own v start ms (.ok j)) :
    ∃ j₀, start = .ok j₀ ∧ j.queue = v.queue ∧ j.course.run = run ∧
      Undisturbed j₀ own ms j v.store := by
  cases h with
  | onWay hq hr h => exact ⟨_, rfl, hq, hr, h⟩

/-- **Runs set out side by side**, under different ids and none of them under a name that is
in use. The stores `own` hold of each what the shared one holds, as the shared one itself does
(`Roundtable.Store.Twins.refl`). -/
structure SetsOut (v : Convoy ι) (mandate : ι → Mandate) (own : ι → Store) : Prop where
  queue : v.queue.Reachable
  ids : Function.Injective fun i => (mandate i).run
  names : ∀ i, v.queue.current? (mandate i).run.topic = none
  stores : ∀ i, v.store.Twins (mandate i).run (own i)
  legs : ∀ i, v.legs i = (mandate i).embark v.queue

variable {v v' : Convoy ι} {k i : ι} {m : Move} {ms : List (ι × Move)} {mandate : ι → Mandate}
  {own : ι → Store}

/-- At the outset all fare well. -/
theorem SetsOut.fares (h : v.SetsOut mandate own) (i : ι) :
    Fares (mandate i).run (own i) v ((mandate i).embark .empty) [] (v.leg i) := by
  have hleg : v.leg i = (mandate i).embark v.queue := by
    rw [leg, h.legs, Mandate.embark_onto]
  rw [hleg]
  cases hj : (mandate i).embark v.queue with
  | error e =>
    rw [← Mandate.embark_onto _ v.queue, hj]
    exact .refused (h.names i) (h.stores i)
  | ok j =>
    obtain ⟨j₀, hj₀⟩ : ∃ j₀, (mandate i).embark .empty = .ok j₀ := by
      rw [← Mandate.embark_onto _ v.queue, hj]
      exact ⟨_, rfl⟩
    rw [hj₀]
    have hund := undisturbed_of_embark h.queue.sound (h.names i) (h.stores i) hj hj₀
    obtain ⟨-, -, ns, rfl⟩ := embark_eq_ok hj
    exact .onWay rfl rfl hund

/-! ### Moves in any order -/

variable [DecidableEq ι]

/-- A run goes on, and the queue and the store with it. -/
def advance (v : Convoy ι) (k : ι) (j : Journey) (s : Store) : Convoy ι :=
  ⟨j.queue, s, Function.update v.legs k (.ok j)⟩

theorem leg_advance_self (v : Convoy ι) (k : ι) (j : Journey) (s : Store) :
    (v.advance k j s).leg k = .ok j := by
  unfold leg advance
  dsimp only
  rw [Function.update_self]
  rfl

theorem leg_advance_ne (h : i ≠ k) (j : Journey) (s : Store) :
    (v.advance k j s).leg i = (v.leg i).map (·.onto j.queue) := by
  unfold leg advance
  dsimp only
  rw [Function.update_of_ne h]
  cases v.legs i <;> rfl

/-- **One run makes a move**, and the store answers what it asks. -/
inductive Step (v : Convoy ι) (k : ι) (m : Move) : Convoy ι → Prop
  | move {j j' : Journey} {new : Option Call} {s : Store} (hj : v.leg k = .ok j)
      (hm : j.move? m = some j') (hc : j'.calls = j.calls ++ new.toList)
      (hs : v.store.Serves j.course.run new.toList s) :
      Step v k m (v.advance k j' s)

/-- **The runs make moves**, one after another and in any order. -/
inductive Travels (v : Convoy ι) : List (ι × Move) → Convoy ι → Prop
  | nil : Travels v [] v
  | concat {ms : List (ι × Move)} {v' v'' : Convoy ι} {k : ι} {m : Move}
      (h : Travels v ms v') (hs : Step v' k m v'') : Travels v (ms ++ [(k, m)]) v''

/-- The moves of one run among those of all. -/
def movesOf (k : ι) (ms : List (ι × Move)) : List Move :=
  ms.filterMap fun x => if x.1 = k then some x.2 else none

theorem movesOf_concat_self (k : ι) (ms : List (ι × Move)) (m : Move) :
    movesOf k (ms ++ [(k, m)]) = movesOf k ms ++ [m] := by
  simp [movesOf]

theorem movesOf_concat_ne {k i : ι} (h : k ≠ i) (ms : List (ι × Move)) (m : Move) :
    movesOf i (ms ++ [(k, m)]) = movesOf i ms := by
  simp [movesOf, h]

/-- **A move of one run** is none of the others' business. -/
theorem Step.fares (h : Step v k m v') (hids : Function.Injective fun i => (mandate i).run)
    (hall : ∀ i, Fares (mandate i).run (own i) v ((mandate i).embark .empty) (movesOf i ms)
      (v.leg i)) (i : ι) :
    Fares (mandate i).run (own i) v' ((mandate i).embark .empty) (movesOf i (ms ++ [(k, m)]))
      (v'.leg i) := by
  obtain @⟨j, j', new, s, hj, hm, hc, hs⟩ := h
  have hk := hall k
  rw [hj] at hk
  obtain ⟨j₀, hj₀, hqueue, hrun, hk⟩ := hk.exists_start
  obtain ⟨ht₀, hr₀, -⟩ := Mandate.fresh hj₀
  obtain ⟨hk', hspares⟩ := hk.move ht₀ hr₀ hm hc hs
  by_cases hi : i = k
  · subst hi
    rw [movesOf_concat_self, hj₀, leg_advance_self]
    exact .onWay rfl ((sameRun_of_move? hm).runId.trans hrun) hk'
  · have hne : j.course.run ≠ (mandate i).run := hrun ▸ fun h => hi (hids h).symm
    have hspared := hspares (mandate i).run.topic fun h => hne (RunId.topic_injective h).symm
    rw [movesOf_concat_ne (Ne.symm hi), leg_advance_ne hi]
    have hfares := hall i
    generalize v.leg i = l at hfares
    generalize (mandate i).embark .empty = start at hfares
    generalize movesOf i ms = ms at hfares
    cases hfares with
    | refused hn hs₁ =>
      exact .refused (hspared.current.trans (hqueue ▸ hn)) (hs₁.serves_foreign hne hs)
    | @onWay j₁ j₂ _ hq hr h =>
      refine .onWay rfl hr (h.onto (hk.onTrack.move hm).1.sound ?_ (hr ▸ hne) hs)
      rw [hq, ← hqueue, topic, hr]
      exact hspared

/-- **Whatever moves the runs make**, all fare well. -/
theorem Travels.fares (h : Travels v ms v') (h₀ : v.SetsOut mandate own) (i : ι) :
    Fares (mandate i).run (own i) v' ((mandate i).embark .empty) (movesOf i ms) (v'.leg i) := by
  induction h generalizing i with
  | nil => exact h₀.fares i
  | concat _ hs ih => exact hs.fares h₀.ids ih i

/-- **Runs do not disturb one another.** Runs that set out side by side share a queue and a
store that does not fail them, and move in any order. Then the following holds of each of them
at every time.

Where it was refused, it would have been refused alone, and the shared store tells of it what
its own store tells. Where it is on its way, the same moves can be made by the run alone on
an empty queue; its own store answers all that is asked then, what is seen of the run is the
same, and so is what the stores tell of it. What its workers receive was published by the run
itself, under its own topic and with tasks of its own plans. And once it has returned, its
topic is not on the queue. -/
theorem undisturbed (h₀ : v.SetsOut mandate own) (h : Travels v ms v') (k : ι) :
    (∀ e, v'.leg k = .error e → (mandate k).embark .empty = .error e ∧ movesOf k ms = [] ∧
      v'.store.history (mandate k).run = (own k).history (mandate k).run) ∧
    (∀ j, v'.leg k = .ok j → j.course.run = (mandate k).run ∧
      (∃ j₀ j₁ s, (mandate k).embark .empty = .ok j₀ ∧ j₀.moves? (movesOf k ms) = some j₁ ∧
        (own k).Serves (mandate k).run j₁.calls s ∧ j.sight = j₁.sight ∧
        v'.store.history (mandate k).run = s.history (mandate k).run) ∧
      ∀ i e, j.Receives i e → j.Owns e) ∧
    (v'.Returned k → v'.queue.current? (mandate k).run.topic = none) := by
  have hfares := h.fares h₀ k
  have hfresh := @Mandate.fresh (mandate k)
  unfold Returned
  generalize (mandate k).embark .empty = start at hfares hfresh ⊢
  generalize movesOf k ms = moves at hfares ⊢
  generalize v'.leg k = leg at hfares ⊢
  cases hfares with
  | refused hn hs =>
    refine ⟨fun e he => ⟨?_, rfl, hs.history⟩, fun j hj => ?_, fun _ => hn⟩
    · rw [he]
    · cases hj
  | @onWay j₀ j _ hqueue hr hund =>
    refine ⟨fun e he => ?_, fun j' hj' => ?_, fun hover => ?_⟩
    · cases he
    · obtain rfl := Except.ok.inj hj'
      obtain ⟨f, n, j₁, hms, hlike⟩ := hund.alike
      obtain ⟨s, hserves, htwins⟩ := hund.served
      obtain ⟨ht₀, -, hstocked₀⟩ := hfresh rfl
      rw [hr] at hserves htwins
      rw [hlike.calls] at hserves
      have hreach : j₀.Reaches Move.IsAny j₁ := Reaches.of_moves? (fun _ _ => trivial) hms
      have hstocked := hlike.stocked (hstocked₀.reaches ht₀ hreach)
      exact ⟨hr, ⟨j₀, j₁, s, rfl, hms, hserves, hlike.sight, htwins.history⟩,
        fun i e => hstocked.receives hund.onTrack⟩
    · rw [← hqueue, ← hr]
      exact hund.gone (hover j rfl)

/-! ### Two runs in turn -/

/-- **What a move makes of a convoy**, if it can be made now; what is recorded is recorded at
`now`. -/
def move? (now : Instant) (v : Convoy ι) (x : ι × Move) : Option (Convoy ι) :=
  match v.leg x.1 with
  | .error _ => none
  | .ok j => (j.move? x.2).bind fun j' =>
    ((j'.calls.drop j.calls.length).foldlM (Store.answer? j.course.run now) v.store).map
      (v.advance x.1 j')

theorem step_of_move? {now : Instant} (h : v.move? now (k, m) = some v') : Step v k m v' := by
  unfold move? at h
  split at h
  · cases h
  · next j hj =>
    obtain ⟨j', hm, h⟩ := Option.bind_eq_some_iff.mp h
    obtain ⟨s, hs, rfl⟩ := Option.map_eq_some_iff.mp h
    obtain ⟨new, hnew, -⟩ := calls_of_move? hm
    rw [hnew, List.drop_left] at hs
    exact .move hj hm hnew (Store.serves_of_answer? hs)

theorem travels_of_move? {now : Instant} (h : ms.foldlM (move? now) v = some v') :
    Travels v ms v' := by
  induction ms using List.reverseRecOn generalizing v' with
  | nil =>
    obtain rfl := Option.some.inj h
    exact .nil
  | append_singleton ms x ih =>
    rw [List.foldlM_append] at h
    obtain ⟨v₁, h₁, h⟩ := Option.bind_eq_some_iff.mp h
    rw [List.foldlM_cons] at h
    obtain ⟨v₂, h₂, h⟩ := Option.bind_eq_some_iff.mp h
    obtain rfl := Option.some.inj h
    exact .concat (ih h₁) (step_of_move? h₂)

/-- Two runs of one round each, with two workers. -/
def pair (b : Bool) : Mandate where
  run := if b then ⟨"east", by decide +kernel⟩ else ⟨"west", by decide +kernel⟩
  mission := ""
  workers := 2
  limit := 1
  bounded := by decide
  delegation := default
  now := default

/-- The two set out on an empty queue, with a store in memory. -/
def pairOut : Convoy Bool := ⟨.empty, .memory .empty, fun b => (pair b).embark .empty⟩

/-- How each of them goes. -/
def pairRun : List Move :=
  [stored] ++ crossedRound (.stop "enough") "1" "2" ++ [stored, .own default]

/-- They make their moves in turn. -/
def inTurn : List (Bool × Move) := pairRun.flatMap fun m => [(true, m), (false, m)]

theorem undisturbed_pair : ∃ v, Travels pairOut inTurn v ∧ ∀ b, v.Returned b ∧
    v.queue.current? (pair b).run.topic = none ∧ ∃ j j₀ j₁ s, v.leg b = .ok j ∧
      (pair b).embark .empty = .ok j₀ ∧ j₀.moves? pairRun = some j₁ ∧
      (Store.memory .empty).Serves (pair b).run j₁.calls s ∧ j.sight = j₁.sight ∧
      v.store.history (pair b).run = s.history (pair b).run := by
  have hout : pairOut.SetsOut pair fun _ => .memory .empty := by
    refine ⟨.refl, ?_, fun _ => rfl, fun _ => rfl, fun _ => rfl⟩
    have hne : (pair true).run ≠ (pair false).run := by decide +kernel
    intro b b' h
    cases b <;> cases b'
    · rfl
    · exact absurd h.symm hne
    · exact absurd h hne
    · rfl
  have hsome : (inTurn.foldlM (move? default) pairOut).any (fun v =>
      (v.leg true).toOption.any (·.course.isOver) &&
        (v.leg false).toOption.any (·.course.isOver)) = true := by
    decide +kernel
  obtain ⟨v, hv, hend⟩ := (Option.any_eq_true _ _).mp hsome
  obtain ⟨heast, hwest⟩ := (Bool.and_eq_true _ _).mp hend
  have htravels := travels_of_move? hv
  refine ⟨v, htravels, fun b => ?_⟩
  obtain ⟨j, hj, hover⟩ : ∃ j, v.leg b = .ok j ∧ j.course.isOver = true := by
    have hb : (v.leg b).toOption.any (·.course.isOver) = true := by
      cases b
      · exact hwest
      · exact heast
    cases hleg : v.leg b with
    | error e => simp [hleg, Except.toOption] at hb
    | ok j => exact ⟨j, rfl, by simpa [hleg, Except.toOption] using hb⟩
  have hreturned : v.Returned b := fun j' hj' =>
    Except.ok.inj (hj.symm.trans hj') ▸ hover
  have hmoves : movesOf b inTurn = pairRun := by cases b <;> rfl
  obtain ⟨-, hway, hgone⟩ := undisturbed hout htravels b
  obtain ⟨-, ⟨j₀, j₁, s, hj₀, hj₁, hserves, hsight, hhistory⟩, -⟩ := hway j hj
  exact ⟨hreturned, hgone hreturned, j, j₀, j₁, s, hj, hj₀, hmoves ▸ hj₁, hserves, hsight,
    hhistory⟩

end Convoy

end Roundtable

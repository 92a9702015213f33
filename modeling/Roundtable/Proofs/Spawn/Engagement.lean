import Roundtable.Spawn

/-!
# A spawn among those it deals with

A spawn waits for answers, and who answers are a factory, the worker it returns and a timer.
Here they are any that there can be (`Roundtable.Parties`): a factory returns a worker or
refuses, a worker ends its work after some time in some way or never does, and its close
succeeds or not. In a `Roundtable.Engagement` **a spawn is answered what it asks and nothing
else**: each of its acts is carried out, and what comes of it is the next answer.

How far an engagement has come is its `Roundtable.Engagement.Phase`, with the number of
answers that are still to come. Each answer leads to the next phase
(`Roundtable.Engagement.Phase.step`), and after the last one nothing more happens, so that
three answers are enough for every engagement (`Roundtable.Engagement.Phase.run`).
-/

namespace Roundtable

/-! ### The parties -/

/-- What a factory is asked for. -/
structure WorkerRequest where
  role : String
  planning : Option PlanningOverride
deriving DecidableEq, Repr

/-- What a worker is handed. -/
structure Assignment where
  mission : String
  session : SessionId
  budget : Span
deriving DecidableEq, Repr

/-- How work ends that comes to an end of its own. -/
inductive WorkEnd
  | returned (o : ExecutionOutcome)
  | raised (e : ExecutionError)
  | brokeOff (message : Option String)
deriving DecidableEq, Repr

/-- The end of the work as the end of an execution. -/
def WorkEnd.executionEnd : WorkEnd → ExecutionEnd
  | returned o => .returned o
  | raised e => .raised e
  | brokeOff m => .brokeOff m

/-- Work that comes to an end: the time it takes, and its end. -/
structure Labour where
  length : Span
  ending : WorkEnd
deriving DecidableEq, Repr

/-- A worker. -/
structure Worker where
  /-- What it makes of an assignment, unless it works on for ever. -/
  work : Assignment → Option Labour
  /-- What comes of closing it. -/
  close : Except TeardownError Unit

/-- **Those a spawn deals with**: a factory and a timer. -/
structure Parties where
  create : WorkerRequest → Except FactoryError Worker
  /-- The time after which the timer of a budget goes off: the budget itself, or what a timer
  that counts in steps makes of it. -/
  rings : Span → Span

/-- What the factory is asked for on behalf of a request. -/
def SubAgentSpec.workerRequest (s : SubAgentSpec) : WorkerRequest := ⟨s.role, s.planning⟩

/-- What a spawn hands its worker. -/
def Spawn.assignment (s : Spawn) : Assignment := ⟨s.spec.mission, s.session, s.budget⟩

namespace Parties

variable (p : Parties) (w : Worker) (a : Assignment)

/-- The work ends by itself, and no later than the timer of its budget goes off. -/
def EndsInTime (x : WorkEnd) : Prop :=
  ∃ l, w.work a = some l ∧ l.ending = x ∧
    l.length.nanoseconds ≤ (p.rings a.budget).nanoseconds

/-- The work still goes on when the timer of its budget has gone off. -/
def Outlasts : Prop :=
  ∀ l, w.work a = some l → (p.rings a.budget).nanoseconds < l.length.nanoseconds

/-- **How an execution ends**: the work is looked after before the timer, so one that is
done just when its budget ends is done. -/
def executionEnd : ExecutionEnd :=
  match w.work a with
  | some l =>
    if l.length.nanoseconds ≤ (p.rings a.budget).nanoseconds then l.ending.executionEnd
    else .outOfTime
  | none => .outOfTime

variable {p w a}

theorem executionEnd_of_endsInTime {x : WorkEnd} (h : p.EndsInTime w a x) :
    p.executionEnd w a = x.executionEnd := by
  obtain ⟨l, hl, rfl, hle⟩ := h
  simp only [executionEnd, hl, if_pos hle]

theorem executionEnd_of_outlasts (h : p.Outlasts w a) : p.executionEnd w a = .outOfTime := by
  unfold executionEnd
  split
  · next l hl => exact if_neg (Nat.not_le.mpr (h l hl))
  · rfl

/-- Work ends by itself in time or is overtaken by its budget. -/
theorem endsInTime_or_outlasts (p : Parties) (w : Worker) (a : Assignment) :
    (∃ x, p.EndsInTime w a x) ∨ p.Outlasts w a := by
  by_cases h : p.Outlasts w a
  · exact .inr h
  · obtain ⟨l, hl, hle⟩ : ∃ l, w.work a = some l ∧
        l.length.nanoseconds ≤ (p.rings a.budget).nanoseconds := by
      simpa [Outlasts] using h
    exact .inl ⟨l.ending, l, hl, rfl, hle⟩

theorem EndsInTime.not_outlasts {x : WorkEnd} (h : p.EndsInTime w a x) : ¬ p.Outlasts w a := by
  obtain ⟨l, hl, -, hle⟩ := h
  exact fun hout => Nat.not_lt.mpr hle (hout l hl)

/-- Work ends in one way. -/
theorem EndsInTime.unique {x y : WorkEnd} (h : p.EndsInTime w a x) (h' : p.EndsInTime w a y) :
    x = y := by
  obtain ⟨l, hl, rfl, -⟩ := h
  obtain ⟨l', hl', rfl, -⟩ := h'
  rw [Option.some.inj (hl.symm.trans hl')]

end Parties

/-! ### Acts and answers -/

/-- The act asks for something, so that an answer comes. -/
def SpawnAct.asks : SpawnAct → Bool
  | create | execute | close => true
  | notify _ | cancel | leaveExecution | closeAside => false

/-- **A spawn and its parties**: what the spawn did, what the parties heard of it, and the
answer that is on its way. -/
structure Engagement where
  spawn : Spawn
  acts : List SpawnAct
  requests : List WorkerRequest
  worker : Option Worker
  assignments : List Assignment
  answer : Option SpawnInput

namespace Engagement

section Machine

variable (p : Parties)

/-- The parties carry out an act of the spawn. -/
def perform (e : Engagement) (a : SpawnAct) : Engagement :=
  let e := { e with acts := e.acts ++ [a] }
  match a with
  | .create =>
    let e := { e with requests := e.requests ++ [e.spawn.spec.workerRequest] }
    match p.create e.spawn.spec.workerRequest with
    | .ok w => { e with worker := some w, answer := some (.created (.ok ())) }
    | .error err => { e with answer := some (.created (.error err)) }
  | .execute =>
    { e with
      assignments := e.assignments ++ [e.spawn.assignment]
      answer := e.worker.map fun w => .ended (p.executionEnd w e.spawn.assignment) }
  | .close => { e with answer := e.worker.map fun w => .closed w.close }
  | .notify _ | .cancel | .leaveExecution | .closeAside => e

/-- The parties carry out acts, one after another. -/
def performAll (e : Engagement) (acts : List SpawnAct) : Engagement := acts.foldl (perform p) e

/-- A spawn begins. -/
def begin (spec : SubAgentSpec) (standard : Span) (fresh : String) (now : Instant) :
    Engagement :=
  let (s, acts) := Spawn.begin spec standard fresh now
  performAll p ⟨s, [], [], none, [], none⟩ acts

/-- **The spawn takes the answer that is on its way**, if there is one. -/
def step (e : Engagement) (now : Instant) : Engagement :=
  match e.answer with
  | none => e
  | some x =>
    let (s, acts) := e.spawn.receive x now
    performAll p { e with spawn := s, answer := none } acts

/-- The spawn takes answers at these instants. -/
def run (e : Engagement) (times : List Instant) : Engagement := times.foldl (step p) e

end Machine

variable {p : Parties} {e : Engagement}

theorem performAll_cons (e : Engagement) (a : SpawnAct) (acts : List SpawnAct) :
    performAll p e (a :: acts) = performAll p (perform p e a) acts := rfl

/-- An act that asks for nothing is only done. -/
theorem perform_of_not_asks {a : SpawnAct} (h : a.asks = false) (e : Engagement) :
    perform p e a = { e with acts := e.acts ++ [a] } := by
  cases a <;> simp_all [perform, SpawnAct.asks]

theorem performAll_of_not_asks {acts : List SpawnAct} (h : ∀ a ∈ acts, a.asks = false)
    (e : Engagement) : performAll p e acts = { e with acts := e.acts ++ acts } := by
  induction acts generalizing e with
  | nil => simp [performAll]
  | cons a acts ih =>
    rw [performAll_cons, perform_of_not_asks (h a List.mem_cons_self),
      ih fun b hb => h b (List.mem_cons_of_mem _ hb)]
    simp

/-! ### Phases -/

/-- What it amounts to that there is no worker. -/
def refusal (err : FactoryError) : Conclusion := ⟨.failure, "", some err.message⟩

/-- What a spawn does when its execution has ended. -/
def leaving (x : ExecutionEnd) : List SpawnAct :=
  (if x = .outOfTime then [.cancel] else []) ++ [.leaveExecution, .close]

/-- What a spawn does when its worker has been closed. -/
def parting (s : Spawn) (c : Conclusion) (r : Except TeardownError Unit) (now : Instant) :
    List SpawnAct :=
  Spawn.closeNotices r ++ (s.finish c now).2

/-- An engagement with a worker that has its assignment. -/
def staffed (s : Spawn) (stage : SpawnStage) (acts : List SpawnAct) (w : Worker)
    (answer : Option SpawnInput) : Engagement :=
  { spawn := { s with stage }, acts, requests := [s.spec.workerRequest], worker := some w
    assignments := [s.assignment], answer }

/-- An engagement whose factory was asked for a worker. -/
def asked (s : Spawn) (stage : SpawnStage) (acts : List SpawnAct) (w : Option Worker)
    (answer : Option SpawnInput) : Engagement :=
  { spawn := { s with stage }, acts, requests := [s.spec.workerRequest], worker := w
    assignments := [], answer }

/-- **How far an engagement has come** that began as `s` with the acts `first`, and how many
answers are still to come. -/
inductive Phase (p : Parties) (s : Spawn) (first : List SpawnAct) : Nat → Engagement → Prop
  | refused {err : FactoryError} (h : p.create s.spec.workerRequest = .error err) :
      Phase p s first 1 (asked s .creating first none (some (.created (.error err))))
  | hired {w : Worker} (h : p.create s.spec.workerRequest = .ok w) :
      Phase p s first 3 (asked s .creating first (some w) (some (.created (.ok ()))))
  | working {w : Worker} (h : p.create s.spec.workerRequest = .ok w) :
      Phase p s first 2 (staffed s .executing (first ++ [.execute]) w
        (some (.ended (p.executionEnd w s.assignment))))
  | closing {w : Worker} {x : ExecutionEnd} (h : p.create s.spec.workerRequest = .ok w)
      (hx : p.executionEnd w s.assignment = x) :
      Phase p s first 1 (staffed s (.closing (x.conclusion s.budget))
        (first ++ [.execute] ++ leaving x) w (some (.closed w.close)))
  | unhired {err : FactoryError} {now : Instant} (h : p.create s.spec.workerRequest = .error err) :
      Phase p s first 0 (asked s (.finished (s.result (refusal err) now))
        (first ++ (s.finish (refusal err) now).2) none none)
  | closed {w : Worker} {x : ExecutionEnd} {now : Instant}
      (h : p.create s.spec.workerRequest = .ok w) (hx : p.executionEnd w s.assignment = x) :
      Phase p s first 0 (staffed s (.finished (s.result (x.conclusion s.budget) now))
        (first ++ [.execute] ++ leaving x ++ parting s (x.conclusion s.budget) w.close now)
        w none)

theorem not_asks_finish (s : Spawn) (c : Conclusion) (now : Instant) :
    ∀ a ∈ (s.finish c now).2, a.asks = false := by
  simp [Spawn.finish, Spawn.measure, Spawn.event, SpawnAct.asks]

theorem not_asks_parting (s : Spawn) (c : Conclusion) (r : Except TeardownError Unit)
    (now : Instant) : ∀ a ∈ parting s c r now, a.asks = false := by
  intro a ha
  rcases List.mem_append.mp ha with ha | ha
  · cases r with
    | ok => cases ha
    | error => rw [List.mem_singleton.mp ha]; rfl
  · exact not_asks_finish s c now a ha

/-- Whatever the end of an execution was, the worker is asked to close. -/
theorem performAll_leaving (e : Engagement) (x : ExecutionEnd) :
    performAll p e (leaving x) =
      { e with
        acts := e.acts ++ leaving x
        answer := e.worker.map fun w => .closed w.close } := by
  unfold leaving
  split <;> simp [performAll, perform]

/-! ### The answers one by one -/

section Answers

variable (p) (s : Spawn) (acts : List SpawnAct) (w : Worker) (now : Instant)

theorem step_refused (err : FactoryError) :
    (asked s .creating acts none (some (.created (.error err)))).step p now =
      asked s (.finished (s.result (refusal err) now)) (acts ++ (s.finish (refusal err) now).2)
        none none :=
  performAll_of_not_asks (not_asks_finish s _ now) (asked s _ acts none none)

theorem step_hired :
    (asked s .creating acts (some w) (some (.created (.ok ())))).step p now =
      staffed s .executing (acts ++ [.execute]) w
        (some (.ended (p.executionEnd w s.assignment))) := rfl

theorem step_ended (x : ExecutionEnd) :
    (staffed s .executing acts w (some (.ended x))).step p now =
      staffed s (.closing (x.conclusion s.budget)) (acts ++ leaving x) w
        (some (.closed w.close)) :=
  performAll_leaving (staffed s _ acts w none) x

theorem step_closed (c : Conclusion) (r : Except TeardownError Unit) :
    (staffed s (.closing c) acts w (some (.closed r))).step p now =
      staffed s (.finished (s.result c now)) (acts ++ parting s c r now) w none :=
  performAll_of_not_asks (not_asks_parting s c r now) (staffed s _ acts w none)

end Answers

namespace Phase

variable {s : Spawn} {first : List SpawnAct} {n : Nat}

/-- **Each answer leads to the next phase.** -/
theorem step (h : Phase p s first (n + 1) e) (now : Instant) :
    Phase p s first n (e.step p now) := by
  cases h with
  | refused h => rw [step_refused]; exact .unhired h
  | hired h => rw [step_hired]; exact .working h
  | working h => rw [step_ended]; exact .closing h rfl
  | closing h hx => rw [step_closed]; exact .closed h hx

/-- Behind the last answer nothing happens. -/
theorem step_zero (h : Phase p s first 0 e) (now : Instant) : e.step p now = e := by
  cases h <;> rfl

/-- **Answers lead through all phases**, if there are enough of them. -/
theorem run {times : List Instant} (h : Phase p s first n e) (hn : n ≤ times.length) :
    Phase p s first 0 (e.run p times) := by
  induction times generalizing n e with
  | nil =>
    obtain rfl := Nat.le_zero.mp hn
    exact h
  | cons now times ih =>
    cases n with
    | zero => exact ih (n := 0) ((step_zero h now).symm ▸ h) (Nat.zero_le _)
    | succ n => exact ih (h.step now) (Nat.le_of_succ_le_succ hn)

/-- An engagement begins with one answer to come, or with three. -/
theorem begin (p : Parties) (spec : SubAgentSpec) (standard : Span) (fresh : String)
    (now : Instant) : ∃ n ≤ 3, Phase p (Spawn.begin spec standard fresh now).1
      (Spawn.begin spec standard fresh now).2 n (Engagement.begin p spec standard fresh now) := by
  cases h : p.create spec.workerRequest with
  | error err =>
    refine ⟨1, by decide, (congrArg (Phase p _ _ 1) ?_).mp (.refused h)⟩
    simp [Engagement.begin, performAll, perform, Spawn.begin, asked, h, Spawn.measure, Spawn.event]
  | ok w =>
    refine ⟨3, Nat.le_refl 3, (congrArg (Phase p _ _ 3) ?_).mp (.hired h)⟩
    simp [Engagement.begin, performAll, perform, Spawn.begin, asked, h, Spawn.measure, Spawn.event]

end Phase

end Engagement

end Roundtable

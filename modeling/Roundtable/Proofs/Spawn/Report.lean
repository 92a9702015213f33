import Roundtable.Proofs.Course.Venture
import Roundtable.Proofs.Session.Decoding
import Roundtable.Proofs.Spawn.Engagement

/-!
# What comes back from a spawn

However the factory, the worker, the timer and the close behave, a spawn comes back with a
result of one form (`Roundtable.Conclusion.Normal`): **a success exactly if the execution
returned one in time, a timeout exactly if the budget overtook it, a failure otherwise**, with
an error exactly if it is no success and with the output of a worker that returned. What
comes of the close is only counted.

That holds of all the ways an engagement can go because there are three of them: there is no
worker, its work ends in time, or its work outlasts its budget. On each of them the spawn
tells of its beginning and of its end, and of nothing else, under the one session that it
derived, handed its worker and gives back (`Roundtable.Engagement.Report`).
-/

namespace Roundtable

/-! ### Results of one form -/

/-- What a result says of the execution. -/
def SubAgentResult.conclusion (r : SubAgentResult) : Conclusion := ⟨r.status, r.output, r.error⟩

/-- **The form of what comes back** where the factory was asked `q` for a worker for `a`. -/
structure Conclusion.Normal (p : Parties) (q : WorkerRequest) (a : Assignment)
    (c : Conclusion) : Prop where
  success_iff : c.status = .success ↔
    ∃ w o, p.create q = .ok w ∧ p.EndsInTime w a (.returned o) ∧ o.success = true
  timeout_iff : c.status = .timeout ↔ ∃ w, p.create q = .ok w ∧ p.Outlasts w a
  error_iff : c.error = none ↔ c.status = .success
  output : ∀ w o, p.create q = .ok w → p.EndsInTime w a (.returned o) → c.output = o.output
  silent : (∀ w o, p.create q = .ok w → ¬ p.EndsInTime w a (.returned o)) → c.output = ""

namespace Conclusion

variable {p : Parties} {q : WorkerRequest} {a : Assignment} {w : Worker}

/-- Where there is no worker, the refusal is a failure. -/
theorem normal_refusal {err : FactoryError} (h : p.create q = .error err) :
    (Engagement.refusal err).Normal p q a := by
  constructor <;> simp [Engagement.refusal, h]

/-- The worker is the one that the factory returned, and its work ends as it ends. -/
theorem eq_of_endsInTime {x y : WorkEnd} {w' : Worker} (h : p.create q = .ok w)
    (hx : p.EndsInTime w a x) (h' : p.create q = .ok w') (hy : p.EndsInTime w' a y) : x = y := by
  obtain rfl := Except.ok.inj (h'.symm.trans h)
  exact hx.unique hy

theorem not_outlasts_of_endsInTime {x : WorkEnd} (h : p.create q = .ok w)
    (hx : p.EndsInTime w a x) : ¬ ∃ w, p.create q = .ok w ∧ p.Outlasts w a := by
  rintro ⟨w', h', hout⟩
  obtain rfl := Except.ok.inj (h'.symm.trans h)
  exact hx.not_outlasts hout

/-- What a worker returns in time decides the status, and its text is the output. -/
theorem normal_of_returned {o : ExecutionOutcome} (h : p.create q = .ok w)
    (hx : p.EndsInTime w a (.returned o)) :
    ((ExecutionEnd.returned o).conclusion a.budget).Normal p q a := by
  have honly : ∀ w' o', p.create q = .ok w' → p.EndsInTime w' a (.returned o') → o = o' :=
    fun w' o' h' ho => WorkEnd.returned.inj (eq_of_endsInTime h hx h' ho)
  have hstatus : ((ExecutionEnd.returned o).conclusion a.budget).status = .success ↔
      o.success = true := by
    cases ho : o.success <;> simp [ExecutionEnd.conclusion, ho]
  have htimeout : ((ExecutionEnd.returned o).conclusion a.budget).status ≠ .timeout := by
    cases ho : o.success <;> simp [ExecutionEnd.conclusion, ho]
  have houtput : ((ExecutionEnd.returned o).conclusion a.budget).output = o.output := by
    cases ho : o.success <;> simp [ExecutionEnd.conclusion, ho]
  refine ⟨hstatus.trans ⟨fun ho => ⟨w, o, h, hx, ho⟩, ?_⟩,
    iff_of_false htimeout (not_outlasts_of_endsInTime h hx),
    (ExecutionEnd.returned o).isHonest_conclusion a.budget, fun w' o' h' ho => ?_,
    fun hno => absurd hx (hno w o h)⟩
  · rintro ⟨w', o', h', ho, hsuccess⟩
    exact honly w' o' h' ho ▸ hsuccess
  · exact honly w' o' h' ho ▸ houtput

/-- Work that ends in time without anything returned is a failure. -/
theorem normal_of_not_returned {x : WorkEnd} (h : p.create q = .ok w)
    (hx : p.EndsInTime w a x) (hno : ∀ o, x ≠ .returned o) :
    (x.executionEnd.conclusion a.budget).Normal p q a := by
  have hnever : ∀ w' o, p.create q = .ok w' → ¬ p.EndsInTime w' a (.returned o) :=
    fun w' o h' ho => hno o (eq_of_endsInTime h hx h' ho)
  have hfailure : (x.executionEnd.conclusion a.budget).status = .failure ∧
      (x.executionEnd.conclusion a.budget).output = "" := by
    cases x with
    | returned o => exact absurd rfl (hno o)
    | raised | brokeOff => exact ⟨rfl, rfl⟩
  refine ⟨iff_of_false (by simp [hfailure.1]) ?_,
    iff_of_false (by simp [hfailure.1]) (not_outlasts_of_endsInTime h hx),
    x.executionEnd.isHonest_conclusion a.budget,
    fun w' o h' ho => absurd ho (hnever w' o h'), fun _ => hfailure.2⟩
  rintro ⟨w', o, h', ho, -⟩
  exact hnever w' o h' ho

/-- Work that outlasts its budget is a timeout. -/
theorem normal_of_outlasts (h : p.create q = .ok w) (hout : p.Outlasts w a) :
    (ExecutionEnd.outOfTime.conclusion a.budget).Normal p q a := by
  have hnever : ∀ w' o, p.create q = .ok w' → ¬ p.EndsInTime w' a (.returned o) := by
    intro w' o h' ho
    obtain rfl := Except.ok.inj (h'.symm.trans h)
    exact ho.not_outlasts hout
  refine ⟨iff_of_false (by simp [ExecutionEnd.conclusion]) ?_, iff_of_true rfl ⟨w, h, hout⟩,
    ExecutionEnd.outOfTime.isHonest_conclusion a.budget,
    fun w' o h' ho => absurd ho (hnever w' o h'), fun _ => rfl⟩
  rintro ⟨w', o, h', ho, -⟩
  exact hnever w' o h' ho

/-- **However an execution ends**, it is concluded in the one form. -/
theorem normal_executionEnd (h : p.create q = .ok w) :
    ((p.executionEnd w a).conclusion a.budget).Normal p q a := by
  rcases p.endsInTime_or_outlasts w a with ⟨x, hx⟩ | hout
  · rw [Parties.executionEnd_of_endsInTime hx]
    cases x with
    | returned o => exact normal_of_returned h hx
    | raised | brokeOff => exact normal_of_not_returned h hx (by simp)
  · rw [Parties.executionEnd_of_outlasts hout]
    exact normal_of_outlasts h hout

end Conclusion

namespace Engagement

/-! ### What is told -/

section Telling

variable (s : Spawn) (c : Conclusion) (now : Instant)

theorem events_append (acts more : List SpawnAct) :
    Spawn.events (acts ++ more) = Spawn.events acts ++ Spawn.events more :=
  List.filterMap_append

theorem events_finish : Spawn.events (s.finish c now).2 =
    [.subAgentFinished s.session c.status ((s.result c now).duration.millis % 2 ^ 64) now] := rfl

/-- From the beginning of an execution to its close nothing is told but the end. -/
theorem events_staffed (first : List SpawnAct) (x : ExecutionEnd)
    (r : Except TeardownError Unit) :
    Spawn.events (first ++ [.execute] ++ leaving x ++ parting s c r now) =
      Spawn.events first ++ Spawn.events (s.finish c now).2 := by
  have hleaving : Spawn.events (leaving x) = [] := by
    unfold leaving
    split <;> rfl
  have hexecute : Spawn.events [SpawnAct.execute] = [] := rfl
  simp only [parting, events_append, hexecute, hleaving, Spawn.events_closeNotices,
    List.append_nil, List.nil_append]

/-- The act counts a worker that was not closed. -/
abbrev failedTeardown : SpawnAct := .notify (.measure .teardownFailed)

theorem failedTeardown_not_mem_finish : failedTeardown ∉ (s.finish c now).2 := by
  simp [Spawn.finish, Spawn.measure, Spawn.event]

/-- It is not done where there is no worker, -/
theorem failedTeardown_not_mem_asked {first : List SpawnAct} (hfirst : failedTeardown ∉ first) :
    failedTeardown ∉ first ++ (s.finish c now).2 := by
  simp [hfirst, failedTeardown_not_mem_finish]

/-- and where there is one, it is done exactly if its close failed. -/
theorem failedTeardown_mem_staffed {first : List SpawnAct} (hfirst : failedTeardown ∉ first)
    (x : ExecutionEnd) (r : Except TeardownError Unit) :
    failedTeardown ∈ first ++ [.execute] ++ leaving x ++ parting s c r now ↔
      ∃ err, r = .error err := by
  have hfinish := failedTeardown_not_mem_finish s c now
  have hleaving : failedTeardown ∉ leaving x := by
    unfold leaving
    split <;> simp
  cases r <;>
    simp [parting, Spawn.closeNotices, Spawn.measure, hfirst, hleaving, hfinish]

end Telling

/-! ### The report -/

/-- What the worker of a request is to be handed in its session. -/
def due (spec : SubAgentSpec) (session : SessionId) (standard : Span) : Assignment :=
  ⟨spec.mission, session, spec.timeout.getD standard⟩

/-- **What an engagement has come to** that began at `now` with a request, under the standard
budget, and ended with the result `r`. -/
structure Report (p : Parties) (spec : SubAgentSpec) (standard : Span) (now : Instant)
    (e : Engagement) (r : SubAgentResult) : Prop where
  finished : e.spawn.stage = .finished r
  /-- The session is a child of the one that asks, under the cleaned role. -/
  parent : r.session.parent? = some spec.parent
  label : r.session.label? = some (String.ofList (SessionId.cleanLabel spec.role.toList))
  requests : e.requests = [spec.workerRequest]
  /-- The worker is handed that session and the budget, once. -/
  assignments : ∀ w, p.create spec.workerRequest = .ok w →
    e.assignments = [due spec r.session standard]
  unassigned : ∀ err, p.create spec.workerRequest = .error err → e.assignments = []
  /-- It is told of the beginning, then of the end, and of nothing else. -/
  events : ∃ t, Spawn.events e.acts = [.subAgentSpawned r.session spec.parent spec.role now,
    .subAgentFinished r.session r.status (r.duration.millis % 2 ^ 64) t]
  normal : r.conclusion.Normal p spec.workerRequest (due spec r.session standard)
  /-- It is all concluded from the refusal, or from the end of the execution. -/
  refused : ∀ err, p.create spec.workerRequest = .error err → r.conclusion = refusal err
  concluded : ∀ w, p.create spec.workerRequest = .ok w → r.conclusion =
    (p.executionEnd w (due spec r.session standard)).conclusion (spec.timeout.getD standard)
  /-- What comes of the close is only counted. -/
  teardown : .notify (.measure .teardownFailed) ∈ e.acts ↔
    ∃ w err, p.create spec.workerRequest = .ok w ∧ w.close = .error err

section Ending

variable {p : Parties} {spec : SubAgentSpec} {standard : Span} {bits : Nat} {now : Instant}
  {e : Engagement}

/-- What a spawn does first: it tells of its beginning and asks for a worker. -/
theorem begin_acts (spec : SubAgentSpec) (standard : Span) (fresh : String) (now : Instant) :
    Spawn.events (Spawn.begin spec standard fresh now).2 =
        [.subAgentSpawned (spec.parent.derive spec.role none fresh) spec.parent spec.role now] ∧
      failedTeardown ∉ (Spawn.begin spec standard fresh now).2 := by
  refine ⟨rfl, ?_⟩
  simp [Spawn.begin, Spawn.measure, Spawn.event]

/-- **An engagement that is over has come to what it should.** -/
theorem Phase.report (h : Phase p (Spawn.begin spec standard (Uuid.suffix bits) now).1
    (Spawn.begin spec standard (Uuid.suffix bits) now).2 0 e) :
    ∃ r, Report p spec standard now e r := by
  have hparent := SessionId.parent?_branch spec.parent (.generated spec.role bits)
  have hlabel := SessionId.label?_branch spec.parent (.generated spec.role bits)
  obtain ⟨hspawned, hnone⟩ := begin_acts spec standard (Uuid.suffix bits) now
  cases h with
  | @unhired err t h =>
    have hnoworker : ∀ w, p.create spec.workerRequest ≠ .ok w := fun w hw => by
      cases h.symm.trans hw
    refine ⟨_, rfl, hparent, hlabel, rfl, fun w hw => absurd hw (hnoworker w), fun _ _ => rfl,
      ⟨t, ?_⟩, Conclusion.normal_refusal h, fun err' herr => ?_,
      fun w hw => absurd hw (hnoworker w), ?_⟩
    · rw [asked, events_append, hspawned, events_finish]
      rfl
    · rw [Except.error.inj (herr.symm.trans h)]
      rfl
    · refine iff_of_false (failedTeardown_not_mem_asked _ _ t hnone) ?_
      rintro ⟨w, _, hw, -⟩
      exact hnoworker w hw
  | @closed w x t h hx =>
    have hnoerror : ∀ err, p.create spec.workerRequest ≠ .error err := fun err herr => by
      cases h.symm.trans herr
    have hworker : ∀ w', p.create spec.workerRequest = .ok w' → w' = w := fun w' hw =>
      Except.ok.inj (hw.symm.trans h)
    refine ⟨_, rfl, hparent, hlabel, rfl, fun _ _ => rfl,
      fun err herr => absurd herr (hnoerror err), ⟨t, ?_⟩,
      hx ▸ Conclusion.normal_executionEnd h, fun err herr => absurd herr (hnoerror err),
      fun w' hw => ?_, ?_⟩
    · rw [staffed, events_staffed, hspawned, events_finish]
      rfl
    · rw [hworker w' hw, ← hx]
      rfl
    · refine (failedTeardown_mem_staffed _ _ t hnone x w.close).trans ⟨?_, ?_⟩
      · rintro ⟨err, herr⟩
        exact ⟨w, err, h, herr⟩
      · rintro ⟨w', err, hw, herr⟩
        exact ⟨err, hworker w' hw ▸ herr⟩

end Ending

/-- **Every spawn comes back, and in the one form.** Whatever is asked for and however the
parties behave, a spawn that takes three answers, and may be given more, has come to a
result: of a session that is a child of the one that asks, under its cleaned role, and that
the worker was handed with the budget; told at its beginning and at its end; and with the
status, the error and the output that its execution gives, whatever came of the close. -/
theorem comes_back (p : Parties) (spec : SubAgentSpec) (standard : Span) (bits : Nat)
    (now t₁ t₂ t₃ : Instant) (later : List Instant) :
    ∃ r, Report p spec standard now
      ((begin p spec standard (Uuid.suffix bits) now).run p (t₁ :: t₂ :: t₃ :: later)) r := by
  obtain ⟨n, hn, hphase⟩ := Phase.begin p spec standard (Uuid.suffix bits) now
  refine (hphase.run (hn.trans ?_)).report
  simp

end Engagement

end Roundtable

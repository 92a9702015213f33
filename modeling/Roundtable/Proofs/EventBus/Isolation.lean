import Roundtable.Proofs.EventBus.Minutes
import Roundtable.Proofs.Session.Ancestry

/-!
# Whose sub-agents a receiver hears of

An event of a sub-agent names its session only, and a run claims it if the session descends
from the run's root session. So **it belongs to the run it was derived in, and to exactly
those other runs whose ids read as sessions above it**: an id that the way to it passes, or
one from which the run's own id reads as derived (`Event.belongsTo_iff`).

Run ids may hold the marker of derived sessions, so there are such runs: the id `r1--sub__`
reads as a session below `r1`, which can derive no such session, and what happens in it is
told to those who listen to `r1` (`Event.isolation_impostor`). Between runs whose ids do not
read as derived there are none, and each of them hears of its own sub-agents only.
-/

namespace Roundtable

/-- Two runs with the same root session are the same. -/
theorem RunId.rootSession_injective : Function.Injective RunId.rootSession := by
  rintro ⟨s, hs⟩ ⟨t, ht⟩ h
  obtain rfl : s = t := congrArg SessionId.text h
  rfl

namespace Event

open SessionId

variable {e : Event} {a b : RunId} {s : SessionId} {o : Offshoot} {os : List Offshoot}

theorem belongsTo_of_session? (h : e.session? = some s) (b : RunId) :
    e.belongsTo b = s.descendsFrom b.rootSession := by
  cases e with
  | subAgentSpawned s' parent role t | subAgentFinished s' status millis t =>
    obtain rfl : s' = s := Option.some.inj h
    rfl
  | _ => cases h

/-- **To which runs an event of a sub-agent belongs.** -/
theorem belongsTo_iff (h : e.session? = some (a.rootSession.descend (o :: os))) :
    e.belongsTo b = true ↔ b = a ∨ b.rootSession ∈ (a.rootSession.branch o).passed os ∨
      a.rootSession.descendsFrom b.rootSession = true := by
  rw [belongsTo_of_session? h, descendsFrom_iff, ancestors_descend, descendsFrom_iff, passed,
    List.append_assoc, List.mem_append, List.singleton_append, List.mem_cons,
    RunId.rootSession_injective.eq_iff]
  exact or_left_comm

/-- Between runs whose ids do not read as derived, it belongs to its own alone. -/
theorem belongsTo_iff_of_isRoot (h : e.session? = some (a.rootSession.descend (o :: os)))
    (ha : a.rootSession.isRoot = true) (hb : b.rootSession.isRoot = true) :
    e.belongsTo b = true ↔ b = a := by
  rw [belongsTo_iff h]
  refine ⟨?_, .inl⟩
  rintro (hab | hpassed | habove)
  · exact hab
  · have := isRoot_branch a.rootSession o
    rw [← eq_of_mem_passed hpassed hb, hb] at this
    exact absurd this.symm Bool.false_ne_true
  · rw [descendsFrom_iff, ancestors_of_isRoot ha] at habove
    exact absurd habove List.not_mem_nil

/-- **Isolation of runs.** An event of a session that was derived in run `a` by one step or
more belongs to `a`, and to another run exactly if that one's id reads as a session on the
way or above `a`; if no ids read as derived, to `a` alone. A receiver that subscribed for a run
is given events of that run only and misses none of them but for as many as it is told: left
waiting with nothing missed, it was given exactly those that were published. -/
theorem isolation (a : RunId) (o : Offshoot) (os : List Offshoot) (e : Event)
    (he : e.session? = some (a.rootSession.descend (o :: os))) :
    e.belongsTo a = true ∧
    (∀ b, e.belongsTo b = true ↔ b = a ∨ b.rootSession ∈ (a.rootSession.branch o).passed os ∨
      a.rootSession.descendsFrom b.rootSession = true) ∧
    (a.rootSession.isRoot = true → ∀ b, b.rootSession.isRoot = true →
      (e.belongsTo b = true ↔ b = a)) ∧
    (∀ capacity qs n b, let m := (BusDesk.run capacity qs).2
      (.subscribe (some b), .number n) ∈ m → BusDesk.Follows m n b ∧
      (∀ x ∈ BusDesk.given n m, x.belongsTo b = true) ∧
      (∀ answer, m.head? = some (.receive n, answer) → BusDesk.IsDry answer →
        BusDesk.missed n m = 0 →
        BusDesk.given n m = (BusDesk.heard n m).filter (·.belongsTo b))) := by
  refine ⟨(belongsTo_iff he).mpr (.inl rfl), fun b => belongsTo_iff he, fun ha b hb => ?_, ?_⟩
  · exact belongsTo_iff_of_isRoot he ha hb
  · intro capacity qs n b m hn
    have h : BusDesk.Follows m n b := BusDesk.follows capacity qs hn
    exact ⟨h, fun x hx => h.belongsTo hx, fun answer => h.given_eq⟩

/-- A worker below a worker of run `run-7` belongs to that run and not to `run-70`. -/
theorem isolation_pair :
    let a : RunId := ⟨"run-7", by decide +kernel⟩
    let b : RunId := ⟨"run-70", by decide +kernel⟩
    let planner := Offshoot.chosen "planner" "p" (by decide +kernel)
    let helper := Offshoot.chosen "helper" "h" (by decide +kernel)
    let e := Event.subAgentFinished (a.rootSession.descend [planner, helper]) .success 1 default
    e.belongsTo a = true ∧ e.belongsTo b = false := by
  intro a b planner helper e
  have h := isolation a planner [helper] e rfl
  refine ⟨h.1, Bool.eq_false_iff.mpr fun hb => ?_⟩
  have := (h.2.2.1 (by decide +kernel) b (by decide +kernel)).mp hb
  exact absurd (congrArg RunId.text this) (by decide +kernel)

/-! ### A run whose id reads as derived -/

/-- A run whose id reads as a session below `r1`. -/
def impostor : RunId := ⟨"r1--sub__", by decide +kernel⟩

/-- The run `r1`. -/
def plain : RunId := ⟨"r1", by decide +kernel⟩

/-- The session of a worker of the impostor. -/
def impostorSession : SessionId :=
  impostor.rootSession.branch (.chosen "w" "1" (by decide +kernel))

/-- The end of that worker. -/
def impostorEvent : Event := .subAgentFinished impostorSession .success 1 default

/-- Run `r1` derives no such session: its parent would have an empty label. -/
theorem descend_ne_impostorSession (os : List Offshoot) :
    plain.rootSession.descend os ≠ impostorSession := by
  intro h
  cases os using List.reverseRecOn with
  | nil => exact absurd h (by decide +kernel)
  | append_singleton os o =>
    have hparent : plain.rootSession.descend os = impostor.rootSession := by
      simpa [impostorSession] using congrArg parent? h
    cases os using List.reverseRecOn with
    | nil => exact absurd hparent (by decide +kernel)
    | append_singleton os o' =>
      have hread : impostor.rootSession.label? = some "" := by decide +kernel
      have hlabel := congrArg label? hparent
      rw [descend_concat, label?_branch, hread] at hlabel
      exact o'.cleanLabel_clean.ne_nil (by rw [Option.some.inj hlabel]; rfl)

/-- **A receiver of a run is given the event of another run's worker**, one that the first run
cannot even have. -/
theorem isolation_impostor :
    impostorSession = ⟨"r1--sub__--sub_w_1"⟩ ∧ impostor ≠ plain ∧
    (∀ os, plain.rootSession.descend os ≠ impostorSession) ∧
    impostorEvent.belongsTo impostor = true ∧ impostorEvent.belongsTo plain = true ∧
    BusDesk.given 0 (BusDesk.run 16
      [.subscribe (some plain), .publish impostorEvent, .receive 0]).2 = [impostorEvent] :=
  ⟨by decide +kernel, by decide +kernel, descend_ne_impostorSession, by decide +kernel,
    by decide +kernel, by decide +kernel⟩

end Event

end Roundtable

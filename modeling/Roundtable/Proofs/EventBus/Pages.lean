import Roundtable.Event
import Roundtable.Proofs.Json.Parts
import Roundtable.Proofs.Json.Plain
import Roundtable.Proofs.Store.Reading

/-!
# Events that are read back

Nothing in the library reads an event, but others do. **What is read of an event is the
event** (`Roundtable.Event.takes`), at the time that its text tells, whichever of the nine
kinds it is of. Its kind is read first and the whole of it is read through on the way, so
that no number of an event may be out of range even where it is not wanted.

The run that an event names is not made up by the reader: it stands in the text and was
checked there (`Roundtable.Event.exists_run`).
-/

namespace Roundtable

open Json Json.Decoder

namespace Event

/-- When the event happened. -/
def when : Event → Instant
  | runStarted _ _ _ _ t | roundStarted _ _ t | tasksDispatched _ _ _ _ _ t
  | taskCompleted _ _ _ _ _ t | roundConsolidated _ _ _ _ t | runCompleted _ _ _ t
  | runFailed _ _ _ t | subAgentSpawned _ _ _ t | subAgentFinished _ _ _ t => t

/-- The event at another time. -/
def movedTo (t : Instant) : Event → Event
  | runStarted r mission w m _ => runStarted r mission w m t
  | roundStarted r n _ => roundStarted r n t
  | tasksDispatched r n topic tasks sentinels _ => tasksDispatched r n topic tasks sentinels t
  | taskCompleted r n task session status _ => taskCompleted r n task session status t
  | roundConsolidated r n summary c _ => roundConsolidated r n summary c t
  | runCompleted r n status _ => runCompleted r n status t
  | runFailed r n failure _ => runFailed r n failure t
  | subAgentSpawned s p role _ => subAgentSpawned s p role t
  | subAgentFinished s status millis _ => subAgentFinished s status millis t

/-- The numbers in an event are what they are counted in. -/
def IsCounted : Event → Prop
  | runStarted _ _ w m _ => w < 2 ^ 64 ∧ m < 2 ^ 32
  | roundStarted _ n _ | taskCompleted _ n .. | roundConsolidated _ n .. | runCompleted _ n ..
  | runFailed _ n .. => n < 2 ^ 32
  | tasksDispatched _ n _ tasks sentinels _ => n < 2 ^ 32 ∧ tasks < 2 ^ 64 ∧ sentinels < 2 ^ 64
  | subAgentSpawned .. => True
  | subAgentFinished _ _ millis _ => millis < 2 ^ 64

theorem movedTo_when (e : Event) : e.movedTo e.when = e := by
  cases e <;> rfl

/-- A number that is counted in 64 bits or fewer is read as itself. -/
theorem isPlain_nat {n k : Nat} (h : n < 2 ^ k) (hk : k ≤ 64) : (Json.nat n).IsPlain := by
  have hlt : n < 2 ^ 64 := Nat.lt_of_lt_of_le h (Nat.pow_le_pow_right (by decide) hk)
  rw [Json.nat, IsPlain]
  omega

theorem isPlain_failure (f : RunFailure) : f.toJson.IsPlain := by
  have hkeys : "kind" < "message" := by decide
  simp only [RunFailure.toJson, IsPlain, FieldsPlain, and_true, List.pairwise_pair]
  exact hkeys

/-- The fields of an event hold no binary numbers. -/
theorem fieldsPlain {e : Event} (h : e.IsCounted) :
    FieldsPlain (e.timelessFields ++ e.timeFields) := by
  cases e
  all_goals
    simp only [IsCounted] at h
    simp [timelessFields, timeFields, FieldsPlain, IsPlain, RunId.toJson, TaskId.toJson,
      SessionId.toJson, Instant.toJson, isPlain_failure]
  case runStarted => exact ⟨isPlain_nat h.1 (by decide), isPlain_nat h.2 (by decide)⟩
  case tasksDispatched =>
    exact ⟨isPlain_nat h.1 (by decide), isPlain_nat h.2.1 (by decide),
      isPlain_nat h.2.2 (by decide)⟩
  all_goals exact isPlain_nat h (by decide)

/-- What is read with a time is read at that time. -/
theorem exists_of_eq {α β : Type} {P : α → Prop} {g : α → β} {R : β → Prop} :
    (∃ b, (∃ a, P a ∧ b = g a) ∧ R b) ↔ ∃ a, P a ∧ R (g a) := by
  constructor
  · rintro ⟨b, ⟨a, ha, rfl⟩, hb⟩
    exact ⟨a, ha, hb⟩
  · rintro ⟨a, ha, hb⟩
    exact ⟨g a, ⟨a, ha, rfl⟩, hb⟩

/-- The fields of a kind are read behind its name. -/
theorem ready_fields (kind : EventKind) :
    Ready (Draft.fields kind) [] ("type" :: (Draft.fields kind).map (·.name)) := by
  cases kind <;> decide

/-- An event is read as a draft of its kind, from the fields that stand behind the kind. -/
theorem takes_of_fills {e : Event} {kind : EventKind} {name : String} {r : List (String × Json)}
    (hfields : e.timelessFields ++ e.timeFields = ("type", .text name) :: r)
    (hkind : EventKind.ofName? name = some kind) {Q : Draft → Prop}
    (hkeys : r.map (·.1) = (Draft.fields kind).map (·.name))
    (hfills : Fills (Draft.fields kind) default (("type", .text name) :: r) Q)
    (hQ : ∀ e', (∃ d, Q d ∧ d.toEvent kind = e') ↔
      e.IsCounted ∧ ∃ t, Instant.ofText? e.when.text = some t ∧ e.movedTo t = e') :
    Takes Event.decoder e.toJson fun e' =>
      e.IsCounted ∧ ∃ t, Instant.ofText? e.when.text = some t ∧ e.movedTo t = e' := by
  have hready := ready_fields kind
  rw [← hkeys] at hready
  have hr : ∀ x ∈ r, x.1 ≠ "type" := fun x hx heq =>
    (List.nodup_cons.mp hready.1).1 (heq ▸ List.mem_map_of_mem hx)
  rw [toJson, hfields]
  refine (Takes.tagged hkind hr ((hfills.record hready).map fun d => d.toEvent kind)).congr
    fun e' => ?_
  rw [hQ]
  refine and_iff_right_of_imp fun h => ?_
  have hplain := fieldsPlain h.1
  rw [hfields, FieldsPlain] at hplain
  exact ⟨r, hplain.2.echo_eq⟩

/-- **What is read of an event**: the event, at the time that its text tells. -/
theorem takes (e : Event) : Takes Event.decoder e.toJson fun e' =>
    e.IsCounted ∧ ∃ t, Instant.ofText? e.when.text = some t ∧ e.movedTo t = e' := by
  -- Behind its tag every event lists its own fields, the time last. Only the counted fields and
  -- the time leave something to say of what is read.
  cases e with
  | runStarted r mission w m t =>
    refine takes_of_fills rfl rfl rfl (.unknown rfl <| .field rfl (RunId.reads r) fun _ _ =>
      .field rfl (takes_text mission) fun _ _ => .field rfl (takes_nat64 w) fun _ _ =>
      .field rfl (takes_nat32 m) fun _ _ => .field rfl (Instant.reads t) fun _ _ => fills_nil)
      fun e' => ?_
    simp only [exists_eq_left, exists_and_left, and_assoc, IsCounted, exists_of_eq]
    rfl
  | roundStarted r n t =>
    refine takes_of_fills rfl rfl rfl (.unknown rfl <| .field rfl (RunId.reads r) fun _ _ =>
      .field rfl (takes_nat32 n) fun _ _ => .field rfl (Instant.reads t) fun _ _ => fills_nil)
      fun e' => ?_
    simp only [exists_eq_left, exists_and_left, and_assoc, IsCounted, exists_of_eq]
    rfl
  | tasksDispatched r n topic tasks sentinels t =>
    refine takes_of_fills rfl rfl rfl (.unknown rfl <| .field rfl (RunId.reads r) fun _ _ =>
      .field rfl (takes_nat32 n) fun _ _ => .field rfl (takes_text topic) fun _ _ =>
      .field rfl (takes_nat64 tasks) fun _ _ => .field rfl (takes_nat64 sentinels) fun _ _ =>
      .field rfl (Instant.reads t) fun _ _ => fills_nil) fun e' => ?_
    simp only [exists_eq_left, exists_and_left, and_assoc, IsCounted, exists_of_eq]
    rfl
  | taskCompleted r n task session status t =>
    refine takes_of_fills rfl rfl rfl (.unknown rfl <| .field rfl (RunId.reads r) fun _ _ =>
      .field rfl (takes_nat32 n) fun _ _ => .field rfl (TaskId.reads task) fun _ _ =>
      .field rfl (SessionId.reads session) fun _ _ =>
      .field rfl (SubAgentStatus.reads status) fun _ _ =>
      .field rfl (Instant.reads t) fun _ _ => fills_nil) fun e' => ?_
    simp only [exists_eq_left, exists_and_left, and_assoc, IsCounted, exists_of_eq]
    rfl
  | roundConsolidated r n summary c t =>
    refine takes_of_fills rfl rfl rfl (.unknown rfl <| .field rfl (RunId.reads r) fun _ _ =>
      .field rfl (takes_nat32 n) fun _ _ => .field rfl (takes_text summary) fun _ _ =>
      .field rfl (takes_bool c) fun _ _ => .field rfl (Instant.reads t) fun _ _ => fills_nil)
      fun e' => ?_
    simp only [exists_eq_left, exists_and_left, and_assoc, IsCounted, exists_of_eq]
    rfl
  | runCompleted r n status t =>
    refine takes_of_fills rfl rfl rfl (.unknown rfl <| .field rfl (RunId.reads r) fun _ _ =>
      .field rfl (takes_nat32 n) fun _ _ => .field rfl (RunStatus.reads status) fun _ _ =>
      .field rfl (Instant.reads t) fun _ _ => fills_nil) fun e' => ?_
    simp only [exists_eq_left, exists_and_left, and_assoc, IsCounted, exists_of_eq]
    rfl
  | runFailed r n failure t =>
    refine takes_of_fills rfl rfl rfl (.unknown rfl <| .field rfl (RunId.reads r) fun _ _ =>
      .field rfl (takes_nat32 n) fun _ _ => .field rfl (RunFailure.reads failure) fun _ _ =>
      .field rfl (Instant.reads t) fun _ _ => fills_nil) fun e' => ?_
    simp only [exists_eq_left, exists_and_left, and_assoc, IsCounted, exists_of_eq]
    rfl
  | subAgentSpawned s parent role t =>
    refine takes_of_fills rfl rfl rfl (.unknown rfl <| .field rfl (SessionId.reads s) fun _ _ =>
      .field rfl (SessionId.reads parent) fun _ _ => .field rfl (takes_text role) fun _ _ =>
      .field rfl (Instant.reads t) fun _ _ => fills_nil) fun e' => ?_
    simp only [exists_eq_left, IsCounted, exists_of_eq, true_and]
    rfl
  | subAgentFinished s status millis t =>
    refine takes_of_fills rfl rfl rfl (.unknown rfl <| .field rfl (SessionId.reads s) fun _ _ =>
      .field rfl (SubAgentStatus.reads status) fun _ _ => .field rfl (takes_nat64 millis) fun _ _ =>
      .field rfl (Instant.reads t) fun _ _ => fills_nil) fun e' => ?_
    simp only [exists_eq_left, exists_and_left, and_assoc, IsCounted, exists_of_eq]
    rfl

/-- No event nests more than two containers. -/
theorem depth_toJson_le (e : Event) : e.toJson.depth ≤ 2 := by
  cases e
  all_goals
    simp [toJson, timelessFields, timeFields, depth, depthFields, Json.nat, RunId.toJson,
      TaskId.toJson, SessionId.toJson, Instant.toJson, RunFailure.toJson]

/-! ### Where the run stands -/

/-- No other field of an event sets its run. -/
theorem keeps_run (kind : EventKind) :
    ∀ f ∈ Draft.fields kind, f.name ≠ "run_id" → f.Keeps Draft.run := by
  cases kind
  all_goals
    simp only [Draft.fields, List.forall_mem_cons, List.not_mem_nil, false_implies, implies_true,
      and_true]
    and_intros
  all_goals
    intro hname
    first
    | exact absurd rfl hname
    | exact keeps_of fun _ _ => rfl

/-- **The run of an event is what its field `run_id` is read as.** -/
theorem owns_run {kind : EventKind} {d : Draft} {r : RunId} (h : (d.toEvent kind).run? = some r) :
    Owns (Draft.fields kind) 0 "run_id" RunId.decoder Draft.run ∧ d.run = r := by
  have hnames := (List.nodup_cons.mp (ready_fields kind).1).2
  cases kind with
  | subAgentSpawned | subAgentFinished => cases h
  | _ =>
    exact ⟨⟨⟨fun x d => { d with run := x }, fun _ _ => rfl, rfl⟩, keeps_run _, hnames⟩,
      Option.some.inj h⟩

end Event

/-- What is read as a run id is a text that is one. -/
theorem RunId.exists_of_decoder {p : Place} {v : Node} {r : RunId} (h : RunId.decoder p v = .ok r) :
    ∃ s, v.textAt [] = some s ∧ RunId.ofText s = .ok r := by
  obtain ⟨s, hs, hr⟩ := check_eq_ok.mp h
  unfold Json.Decoder.text at hs
  split at hs
  · next t =>
    obtain rfl := Except.ok.inj hs
    refine ⟨t, rfl, ?_⟩
    cases hid : RunId.ofText t with
    | error e => rw [hid] at hr; cases hr
    | ok q => rw [hid] at hr; rw [Option.some.inj hr]
  · cases hs

/-- **The run that an event names is a text in it that is a run id.** -/
theorem Event.exists_run {text : String} {e : Event} (h : decode Event.decoder text = .ok e)
    {r : RunId} (hr : e.run? = some r) :
    ∃ s, (document text.toList).1.textAt [("run_id", 1)] = some s ∧ RunId.ofText s = .ok r := by
  obtain ⟨kind, ⟨fs, hv, hread⟩ | ⟨u, is, hv, hread⟩⟩ := exists_of_tagged (exists_of_decode h)
  all_goals
    obtain ⟨d, hd, rfl⟩ := map_eq_ok.mp hread
    obtain ⟨howns, rfl⟩ := Event.owns_run hr
    obtain ⟨q, w, hw, hrun⟩ := exists_part howns hd
    obtain ⟨s, hs, hid⟩ := RunId.exists_of_decoder hrun
    refine ⟨s, ?_, hid⟩
    rw [hv, Node.textAt]
    simp only [Node.part?] at hw ⊢
  · rw [hw]
    exact hs
  · rw [Items.get?, hw]
    exact hs

end Roundtable

import Roundtable.Text.Numeral

/-!
# Task queues

A queue of topics with competing consumers. A message is published to a topic, waits
there in order, goes to exactly one of the topic's subscriptions, and stays in flight
until it is acknowledged, discarded or put back at the end with one more attempt.

**A topic is told by its incarnation, not by its name.** Removing a topic takes its name
away; subscriptions made before hold on to the incarnation and go on draining it, and a
topic created later under the same name is another incarnation. So the queue keeps every
incarnation there ever was, and beside them the names in use and an index of the
deliveries that can still be acknowledged.
-/

namespace Roundtable

/-- What a message carries. A sentinel tells the consumer that receives it to leave. -/
inductive Payload (α : Type)
  | item (value : α)
  | sentinel
deriving DecidableEq, Repr

/-- The payload is a sentinel. -/
def Payload.isSentinel {α : Type} : Payload α → Bool
  | item _ => false
  | sentinel => true

/-- A message on its way. Attempts count from one. -/
structure Envelope (α : Type) where
  topic : String
  payload : Payload α
  id : Nat
  attempt : Nat
deriving DecidableEq, Repr

/-- The id of a delivery in words. -/
def deliveryText (id : Nat) : String := "dlv-" ++ decimal id

/-- What has happened on a topic. -/
structure Counters where
  published : Nat
  sentinels : Nat
  delivered : Nat
  acked : Nat
  nacked : Nat
  requeued : Nat
  discarded : Nat
deriving DecidableEq, Repr

/-- Nothing has happened. -/
def Counters.none : Counters := ⟨0, 0, 0, 0, 0, 0, 0⟩

/-- What has happened on a topic and what it holds. -/
structure TopicStats extends Counters where
  pending : Nat
  inFlight : Nat
deriving DecidableEq, Repr

/-- Why an acknowledgement was refused. -/
inductive QueueError
  | unknownDelivery (id : Nat)
  | notInFlight (id : Nat)
deriving DecidableEq, Repr

/-- The error in words. -/
def QueueError.message : QueueError → String
  | unknownDelivery id => "Unknown delivery " ++ deliveryText id
  | notInFlight id => "Delivery " ++ deliveryText id ++ " is not awaiting acknowledgement"

/-! ### One incarnation of a topic -/

/-- An incarnation of a topic: messages that wait, in order, and messages in flight. -/
structure Topic (α : Type) where
  ready : List (Envelope α)
  inFlight : List (Envelope α)
  counters : Counters
deriving Repr

namespace Topic

variable {α : Type}

/-- A topic nothing was published to. -/
def empty : Topic α := ⟨[], [], .none⟩

/-- The counters, and how many messages wait and are in flight. -/
def stats (t : Topic α) : TopicStats :=
  { t.counters with pending := t.ready.length, inFlight := t.inFlight.length }

/-- A new message goes to the end. -/
def push (t : Topic α) (e : Envelope α) : Topic α :=
  { t with
    ready := t.ready ++ [e]
    counters := { t.counters with
      published := t.counters.published + 1
      sentinels := t.counters.sentinels + (if e.payload.isSentinel then 1 else 0) } }

/-- The first message that waits goes into flight. -/
def take (t : Topic α) : Option (Envelope α × Topic α) :=
  match t.ready with
  | [] => none
  | e :: r =>
    some (e, { t with
      ready := r
      inFlight := t.inFlight ++ [e]
      counters := { t.counters with delivered := t.counters.delivered + 1 } })

/-- The message in flight under an id. -/
def held? (t : Topic α) (id : Nat) : Option (Envelope α) := t.inFlight.find? (·.id == id)

/-- The messages in flight but one. -/
def release (t : Topic α) (id : Nat) : List (Envelope α) := t.inFlight.filter (·.id != id)

/-- A message in flight is done with. -/
def ack (t : Topic α) (id : Nat) : Topic α :=
  { t with
    inFlight := t.release id
    counters := { t.counters with acked := t.counters.acked + 1 } }

/-- A message in flight goes back to the end, with one more attempt. -/
def requeue (t : Topic α) (e : Envelope α) : Topic α :=
  { ready := t.ready ++ [{ e with attempt := e.attempt + 1 }]
    inFlight := t.release e.id
    counters := { t.counters with
      nacked := t.counters.nacked + 1, requeued := t.counters.requeued + 1 } }

/-- A message in flight is given up. -/
def discard (t : Topic α) (id : Nat) : Topic α :=
  { t with
    inFlight := t.release id
    counters := { t.counters with
      nacked := t.counters.nacked + 1, discarded := t.counters.discarded + 1 } }

end Topic

/-! ### The queue -/

/-- A consumer of an incarnation. It ends with the first sentinel it receives. -/
structure Subscription where
  incarnation : Nat
  finished : Bool
deriving DecidableEq, Repr

/-- A queue. -/
structure Queue (α : Type) where
  /-- Every topic there ever was, by incarnation. -/
  topics : List (Topic α)
  /-- The names in use and their incarnations. -/
  names : List (String × Nat)
  /-- The deliveries that can be acknowledged and the names of their topics. -/
  index : List (Nat × String)
  /-- The id of the next delivery. -/
  nextId : Nat
deriving Repr

namespace Queue

variable {α : Type}

/-- A queue without topics. Ids count from one. -/
def empty : Queue α := ⟨[], [], [], 1⟩

instance : Inhabited (Queue α) := ⟨empty⟩

/-- The topic of an incarnation. -/
def topicAt (q : Queue α) (incarnation : Nat) : Topic α := q.topics.getD incarnation .empty

/-- Replaces the topic of an incarnation. -/
def setTopic (q : Queue α) (incarnation : Nat) (t : Topic α) : Queue α :=
  { q with topics := q.topics.set incarnation t }

/-- The incarnation that has the name now. -/
def current? (q : Queue α) (topic : String) : Option Nat := q.names.lookup topic

/-- The incarnation that has the name, created if there is none. -/
def enter (q : Queue α) (topic : String) : Nat × Queue α :=
  match q.current? topic with
  | some i => (i, q)
  | none =>
    (q.topics.length,
      { q with
        topics := q.topics ++ [.empty]
        names := q.names ++ [(topic, q.topics.length)] })

/-- Puts a payload at the end of a topic. -/
def enqueue (q : Queue α) (topic : String) (payload : Payload α) : Nat × Queue α :=
  let (i, q) := q.enter topic
  let id := q.nextId
  let t := (q.topicAt i).push ⟨topic, payload, id, 1⟩
  (id, { q.setTopic i t with index := q.index ++ [(id, topic)], nextId := id + 1 })

/-- Publishes a value. -/
def publish (q : Queue α) (topic : String) (value : α) : Nat × Queue α :=
  q.enqueue topic (.item value)

/-- Publishes a sentinel. -/
def publishSentinel (q : Queue α) (topic : String) : Nat × Queue α := q.enqueue topic .sentinel

/-- Joins the consumers of a topic. -/
def subscribe (q : Queue α) (topic : String) : Subscription × Queue α :=
  let (i, q) := q.enter topic
  (⟨i, false⟩, q)

/-- What a subscription gets when it asks without waiting. -/
inductive Attempt (α : Type)
  /-- A message. -/
  | message (e : Envelope α)
  /-- Nothing is there now. -/
  | pending
  /-- The subscription has had its sentinel. -/
  | ended
deriving Repr

/-- **One attempt to take a message.** A finished subscription takes nothing. -/
def next (q : Queue α) (s : Subscription) : Attempt α × Subscription × Queue α :=
  if s.finished then (.ended, s, q)
  else
    match (q.topicAt s.incarnation).take with
    | none => (.pending, s, q)
    | some (e, t) =>
      (.message e, { s with finished := e.payload.isSentinel }, q.setTopic s.incarnation t)

/-- The incarnation in which a delivery can be acknowledged. -/
def owner? (q : Queue α) (id : Nat) : Option Nat := do q.current? (← q.index.lookup id)

/-- Strikes a delivery from the index. -/
def forget (q : Queue α) (id : Nat) : Queue α :=
  { q with index := q.index.filter (·.1 != id) }

/-- **Acknowledges a delivery.** -/
def ack (q : Queue α) (id : Nat) : Except QueueError (Queue α) :=
  match q.owner? id with
  | none => .error (.unknownDelivery id)
  | some i =>
    match (q.topicAt i).held? id with
    | none => .error (.notInFlight id)
    | some _ => .ok ((q.setTopic i ((q.topicAt i).ack id)).forget id)

/-- **Refuses a delivery**: it goes back to the end of its topic or is given up. -/
def nack (q : Queue α) (id : Nat) (requeue : Bool) : Except QueueError (Queue α) :=
  match q.owner? id with
  | none => .error (.unknownDelivery id)
  | some i =>
    match (q.topicAt i).held? id with
    | none => .error (.notInFlight id)
    | some e =>
      if requeue then .ok (q.setTopic i ((q.topicAt i).requeue e))
      else .ok ((q.setTopic i ((q.topicAt i).discard id)).forget id)

/-- What has happened on a topic. -/
def stats? (q : Queue α) (topic : String) : Option TopicStats :=
  (q.current? topic).map fun i => (q.topicAt i).stats

/-- **Takes a topic's name away**, and with it the way to acknowledge its deliveries. -/
def remove (q : Queue α) (topic : String) : Option TopicStats × Queue α :=
  match q.current? topic with
  | none => (none, q)
  | some i =>
    (some (q.topicAt i).stats,
      { q with
        names := q.names.filter (·.1 != topic)
        index := q.index.filter (·.2 != topic) })

/-- The number of names in use. -/
def topicCount (q : Queue α) : Nat := q.names.length

end Queue

end Roundtable

import Roundtable.Queue.Waiting

/-!
# A desk

A queue served over a counter: its subscriptions are numbered, each is idle, waits or
has been turned into a stream, and every request has an answer. What a subscription
receives while it waits is kept until the next settlement is asked for, which reports
in the order in which the subscriptions began to wait.
-/

namespace Roundtable

/-- What a numbered subscription is doing. -/
inductive Seat
  | idle (s : Subscription)
  | waiting
  | stream (s : Subscription)
  /-- A stream that has ended. -/
  | ended
deriving DecidableEq, Repr

/-- A desk. -/
structure Desk (α : Type) where
  floor : Waiting α Nat
  seats : List Seat
  /-- The subscriptions that began to wait and were not reported, in that order. -/
  line : List Nat
  /-- What they have received. -/
  received : List (Served α Nat)

/-- What can be asked at a desk. -/
inductive DeskRequest (α : Type)
  | publish (topic : String) (value : α)
  | sentinel (topic : String)
  | subscribe (topic : String)
  | next (sub : Nat)
  | ack (id : Nat)
  | nack (id : Nat) (requeue : Bool)
  | stats (topic : String)
  | remove (topic : String)
  | topicCount
  | wait (sub : Nat)
  | settle
  | stream (sub : Nat)
  | drain (sub : Nat)

/-- What a desk answers. -/
inductive DeskAnswer (α : Type)
  | published (id : Nat)
  | number (n : Nat)
  /-- An attempt, and whether the subscription has finished. -/
  | attempt (a : Queue.Attempt α) (finished : Bool)
  | streamed (a : Queue.Attempt α)
  | done
  | refused (e : QueueError)
  | stats (s : Option TopicStats)
  | waiting
  | settled (received : List (Served α Nat)) (waiting : List Nat)
  | streaming
  /-- What a stream gave, and whether it ended. -/
  | drained (items : List (Envelope α)) (ended : Bool)
  /-- The subscription is not in the state for this. -/
  | unavailable

namespace Desk

variable {α : Type}

/-- A desk with an empty queue. -/
def empty : Desk α := ⟨⟨.empty, []⟩, [], [], []⟩

/-- The queue behind the desk. -/
def queue (d : Desk α) : Queue α := d.floor.queue

/-- The desk with another queue. -/
def withQueue (d : Desk α) (q : Queue α) : Desk α := { d with floor := { d.floor with queue := q } }

/-- Gives a subscription another seat. -/
def seat (d : Desk α) (sub : Nat) (s : Seat) : Desk α := { d with seats := d.seats.set sub s }

/-- A message was put into a topic. -/
def woken (d : Desk α) (topic : String) : Desk α := { d with floor := d.floor.wakeTopic topic }

/-- Serves whoever waits, as far as the messages go. -/
def serve (d : Desk α) : Desk α :=
  let (served, floor) := d.floor.settle
  { d with floor, received := d.received ++ served }

/-- Everything a stream gives now. The count bounds the messages. -/
def drainFrom : Nat → Queue α → Subscription →
    List (Envelope α) × Bool × Subscription × Queue α
  | 0, q, s => ([], false, s, q)
  | n + 1, q, s =>
    match q.next s with
    | (.message e, s, q) =>
      let (es, ended, s, q) := drainFrom n q s
      (e :: es, ended, s, q)
    | (.pending, s, q) => ([], false, s, q)
    | (.ended, s, q) => ([], true, s, q)

/-- Reports what those in line have received, and frees their seats. -/
def report (d : Desk α) : DeskAnswer α × Desk α :=
  let got (sub : Nat) : Option (Served α Nat) := d.received.find? (·.key == sub)
  let received := d.line.filterMap got
  let waiting := d.line.filter fun sub => (got sub).isNone
  let d := received.foldl (fun d s => d.seat s.key (.idle s.subscription)) d
  (.settled received waiting, { d with line := waiting, received := [] })

/-- **Answers a request.** -/
def answer (d : Desk α) : DeskRequest α → DeskAnswer α × Desk α
  | .publish topic value =>
    let (id, q) := d.queue.publish topic value
    (.published id, (d.withQueue q).woken topic)
  | .sentinel topic =>
    let (id, q) := d.queue.publishSentinel topic
    (.published id, (d.withQueue q).woken topic)
  | .subscribe topic =>
    let (s, q) := d.queue.subscribe topic
    (.number d.seats.length, { d.withQueue q with seats := d.seats ++ [.idle s] })
  | .next sub =>
    match d.seats[sub]? with
    | some (.idle s) =>
      let (a, s, q) := d.queue.next s
      (.attempt a s.finished, (d.withQueue q).seat sub (.idle s))
    | some (.stream s) =>
      let (a, s, q) := d.queue.next s
      let seat := match a with
        | .ended => .ended
        | _ => .stream s
      (.streamed a, (d.withQueue q).seat sub seat)
    | _ => (.unavailable, d)
  | .ack id =>
    match d.queue.ack id with
    | .ok q => (.done, d.withQueue q)
    | .error e => (.refused e, d)
  | .nack id requeue =>
    match d.queue.nack id requeue with
    | .ok q =>
      let d' := d.withQueue q
      (.done, match requeue, d.queue.owner? id with
        | true, some i => { d' with floor := d'.floor.wake i }
        | _, _ => d')
    | .error e => (.refused e, d)
  | .stats topic => (.stats (d.queue.stats? topic), d)
  | .remove topic =>
    let (s, q) := d.queue.remove topic
    (.stats s, d.withQueue q)
  | .topicCount => (.number d.queue.topicCount, d)
  | .wait sub =>
    match d.seats[sub]? with
    | some (.idle s) =>
      let d := d.seat sub .waiting
      (.waiting, { d with floor := d.floor.begin sub s, line := d.line ++ [sub] }.serve)
    | _ => (.unavailable, d)
  | .settle => d.serve.report
  | .stream sub =>
    match d.seats[sub]? with
    | some (.idle s) => (.streaming, d.seat sub (.stream s))
    | _ => (.unavailable, d)
  | .drain sub =>
    match d.seats[sub]? with
    | some (.stream s) =>
      let bound := (d.queue.topicAt s.incarnation).ready.length + 2
      let (es, ended, s, q) := drainFrom bound d.queue s
      (.drained es ended, (d.withQueue q).seat sub (if ended then .ended else .stream s))
    | _ => (.unavailable, d)

end Desk

end Roundtable

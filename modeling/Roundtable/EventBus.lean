import Roundtable.Event

/-!
# The event bus

One stream of events to any number of receivers. The bus keeps the last events, a power
of two of them, and each receiver has a position in the stream. **A receiver that fell
behind is told once how many events it lost** and goes on at the oldest one kept; after
the last handle to the bus is gone it gets what is left, and then the end.

An event published while nobody listens is not kept: it is no part of the stream.
-/

namespace Roundtable

/-- A reader of the stream. -/
structure Receiver where
  /-- The events of the stream in front of its next one. -/
  position : Nat
  /-- The run whose events it wants; none for all. -/
  run : Option RunId
  /-- It still listens. -/
  open_ : Bool
deriving DecidableEq, Repr

/-- Why a receiver got no event. -/
inductive BusError
  | closed
  | empty
  | lagged (missed : Nat)
deriving DecidableEq, Repr

/-- The error in words. -/
def BusError.message : BusError → String
  | closed => "Event bus is closed"
  | empty => "No events available"
  | lagged n => s!"Receiver lagged by {decimal n} events (events were dropped)"

/-- A bus. -/
structure EventBus where
  /-- How many events are kept. -/
  size : Nat
  /-- The events kept, the oldest first. -/
  kept : List Event
  /-- The length of the stream. -/
  sent : Nat
  receivers : List Receiver
  /-- The handles through which events can be published. -/
  handles : Nat
deriving Repr

namespace EventBus

/-- The least power of two that is not below `n`, from `p` on by doublings. -/
def powerFrom : (steps p n : Nat) → Nat
  | 0, p, _ => p
  | s + 1, p, n => if n ≤ p then p else powerFrom s (2 * p) n

/-- How many events a bus of some capacity keeps. -/
def sizeFor (capacity : Nat) : Nat := powerFrom 64 1 (max capacity 1)

/-- The capacity of a bus nobody configured. -/
def defaultCapacity : Nat := 1024

/-- A bus with one handle. -/
def new (capacity : Nat) : EventBus := ⟨sizeFor capacity, [], 0, [], 1⟩

/-- The number of receivers that listen. -/
def subscriberCount (b : EventBus) : Nat := (b.receivers.filter (·.open_)).length

/-- The number of the oldest event kept. -/
def oldest (b : EventBus) : Nat := b.sent - b.kept.length

/-- **Publishes an event.** -/
def publish (b : EventBus) (e : Event) : EventBus :=
  if b.subscriberCount = 0 then b
  else
    let kept := b.kept ++ [e]
    { b with kept := kept.drop (kept.length - b.size), sent := b.sent + 1 }

/-- A new receiver at the end of the stream. -/
def subscribe (b : EventBus) (run : Option RunId) : Nat × EventBus :=
  (b.receivers.length, { b with receivers := b.receivers ++ [⟨b.sent, run, true⟩] })

/-- One more handle. -/
def clone (b : EventBus) : EventBus := { b with handles := b.handles + 1 }

/-- One handle less. -/
def close (b : EventBus) : EventBus := { b with handles := b.handles - 1 }

/-- A receiver stops listening. -/
def unsubscribe (b : EventBus) (rx : Nat) : EventBus :=
  { b with receivers := b.receivers.modify rx fun r => { r with open_ := false } }

/-- What the stream holds at a position, and the position behind it. -/
def read (b : EventBus) (position : Nat) : Except BusError Event × Nat :=
  if b.sent ≤ position then (.error (if b.handles = 0 then .closed else .empty), position)
  else if position < b.oldest then (.error (.lagged (b.oldest - position)), b.oldest)
  else
    match b.kept[position - b.oldest]? with
    | some e => (.ok e, position + 1)
    | none => (.error .empty, position)

/-- Moves a receiver. -/
def move (b : EventBus) (rx position : Nat) : EventBus :=
  { b with receivers := b.receivers.modify rx fun r => { r with position } }

/-- Reads on while events belong to other runs. The count bounds the events. -/
def readFor (b : EventBus) (run : Option RunId) : (steps position : Nat) →
    Except BusError Event × Nat
  | 0, position => b.read position
  | s + 1, position =>
    match b.read position, run with
    | (.ok e, next), some r => if e.belongsTo r then (.ok e, next) else readFor b run s next
    | answer, _ => answer

/-- **The next event of a receiver**, or why there is none. -/
def receive (b : EventBus) (rx : Nat) : Except BusError Event × EventBus :=
  match b.receivers[rx]? with
  | none => (.error .closed, b)
  | some r =>
    let (answer, position) := b.readFor r.run b.kept.length r.position
    (answer, b.move rx position)

/-- The events from a position on; what was lost is passed over. The count bounds the
steps. -/
def readAll (b : EventBus) : (steps position : Nat) → List Event × Nat
  | 0, position => ([], position)
  | s + 1, position =>
    match b.read position with
    | (.ok e, next) =>
      let (es, last) := readAll b s next
      (e :: es, last)
    | (.error (.lagged _), next) => readAll b s next
    | (.error _, _) => ([], position)

/-- **Everything a receiver can get now.** -/
def drain (b : EventBus) (rx : Nat) : List Event × EventBus :=
  match b.receivers[rx]? with
  | none => ([], b)
  | some r =>
    let (es, position) := b.readAll (b.kept.length + 2) r.position
    (es, b.move rx position)

/-! ### Requests -/

/-- What can be asked of a bus. -/
inductive Request
  | publish (e : Event)
  | subscribe (run : Option RunId)
  | clone
  | close
  | dropClone
  | unsubscribe (rx : Nat)
  /-- The next event, waiting for it if need be. -/
  | receive (rx : Nat)
  /-- The next event if it is there. -/
  | tryReceive (rx : Nat)
  | drain (rx : Nat)

/-- What a bus answers. -/
inductive Answer
  | done
  | number (n : Nat)
  | existed (b : Bool)
  | event (e : Event)
  | events (es : List Event)
  | pending
  | refused (e : BusError)
  /-- No handle is left for this. -/
  | closed
  /-- The receiver is gone or cannot do this. -/
  | unavailable

end EventBus

/-- A bus whose first handle and its clones are told apart. -/
structure BusDesk where
  bus : EventBus
  first : Bool
  clones : Nat

namespace BusDesk

/-- A bus with its first handle. -/
def new (capacity : Nat) : BusDesk := ⟨.new capacity, true, 0⟩

/-- A handle is left. -/
def hasHandle (d : BusDesk) : Bool := d.first || d.clones != 0

/-- A receiver that still listens. -/
def receiver? (d : BusDesk) (rx : Nat) : Option Receiver :=
  (d.bus.receivers[rx]?).filter (·.open_)

/-- **Answers a request.** -/
def answer (d : BusDesk) : EventBus.Request → EventBus.Answer × BusDesk
  | .publish e =>
    if d.hasHandle then (.done, { d with bus := d.bus.publish e }) else (.closed, d)
  | .subscribe run =>
    if d.hasHandle then
      let (n, bus) := d.bus.subscribe run
      (.number n, { d with bus })
    else (.closed, d)
  | .clone =>
    if d.hasHandle then (.done, { d with bus := d.bus.clone, clones := d.clones + 1 })
    else (.closed, d)
  | .close =>
    if d.first then (.done, { d with bus := d.bus.close, first := false }) else (.done, d)
  | .dropClone =>
    if d.clones = 0 then (.existed false, d)
    else (.existed true, { d with bus := d.bus.close, clones := d.clones - 1 })
  | .unsubscribe rx =>
    (.done, { d with bus := d.bus.unsubscribe rx })
  | .receive rx =>
    match d.receiver? rx with
    | none => (.unavailable, d)
    | some _ =>
      let (a, bus) := d.bus.receive rx
      (match a with
        | .ok e => .event e
        | .error .empty => .pending
        | .error e => .refused e, { d with bus })
  | .tryReceive rx =>
    match d.receiver? rx with
    | some ⟨_, none, _⟩ =>
      let (a, bus) := d.bus.receive rx
      (match a with
        | .ok e => .event e
        | .error e => .refused e, { d with bus })
    | _ => (.unavailable, d)
  | .drain rx =>
    match d.receiver? rx with
    | some ⟨_, none, _⟩ =>
      let (es, bus) := d.bus.drain rx
      (.events es, { d with bus })
    | _ => (.unavailable, d)

end BusDesk

end Roundtable

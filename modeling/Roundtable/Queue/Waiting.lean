import Roundtable.Queue.Basic

/-!
# Waiting for messages

A subscription that finds nothing waits to be woken. It does so in steps between which
others may act: it **registers** with its topic, it **tries** to take a message, it
**parks** when there was none, and once woken it registers again. Whoever puts a message
into a topic wakes every registration of the topic in a step of its own, after the
message is there. A message put in between registering and parking is therefore never
overslept: the waker has reached the registration already.

`Waiting` holds a queue and the subscriptions that wait on it, in the order in which
they began. Its steps may interleave in any way; `Waiting.settle` is the one order in
which each waiter in turn goes as far as it can.
-/

namespace Roundtable

/-- Where a waiting subscription is between its steps. -/
inductive WaitStage
  /-- About to register. -/
  | entering
  /-- Registered, about to try. -/
  | registered
  /-- Found nothing; sleeps until woken. -/
  | parked
deriving DecidableEq, Repr

/-- A waiting subscription. -/
structure Waiter where
  subscription : Subscription
  stage : WaitStage
  /-- Woken since it registered. -/
  woken : Bool
deriving DecidableEq, Repr

/-- A waiter that begins. -/
def Waiter.start (s : Subscription) : Waiter := ⟨s, .entering, false⟩

/-- A waiter that registers. -/
def Waiter.register (w : Waiter) : Waiter := { w with stage := .registered, woken := false }

/-- A queue and the subscriptions that wait on it, under names of their own. -/
structure Waiting (α κ : Type) where
  queue : Queue α
  waiters : List (κ × Waiter)

/-- What a waiter was given: a message, or nothing because it had finished. -/
structure Served (α κ : Type) where
  key : κ
  envelope : Option (Envelope α)
  subscription : Subscription

namespace Waiting

variable {α κ : Type}

/-- A subscription begins to wait. -/
def begin (w : Waiting α κ) (key : κ) (s : Subscription) : Waiting α κ :=
  { w with waiters := w.waiters ++ [(key, .start s)] }

/-- Wakes what is registered with an incarnation. -/
def wake (w : Waiting α κ) (incarnation : Nat) : Waiting α κ :=
  { w with
    waiters := w.waiters.map fun (k, x) =>
      if x.subscription.incarnation = incarnation && x.stage != .entering then
        (k, { x with woken := true })
      else (k, x) }

/-- Wakes what waits on the topic that has the name. -/
def wakeTopic (w : Waiting α κ) (topic : String) : Waiting α κ :=
  match w.queue.current? topic with
  | some i => w.wake i
  | none => w

/-- The result of one step of a waiter. -/
inductive StepResult (α κ : Type)
  /-- It waits on, at another stage. -/
  | waits (x : Waiter)
  | served (s : Served α κ) (queue : Queue α)
  /-- It sleeps. -/
  | asleep

/-- **One step of a waiter.** -/
def step (q : Queue α) (key : κ) (x : Waiter) : StepResult α κ :=
  match x.stage with
  | .entering =>
    if x.subscription.finished then .served ⟨key, none, x.subscription⟩ q
    else .waits x.register
  | .registered =>
    match q.next x.subscription with
    | (.message e, s, q) => .served ⟨key, some e, s⟩ q
    | _ => .waits { x with stage := .parked }
  | .parked => if x.woken then .waits { x with stage := .entering } else .asleep

/-- The steps of one waiter until it is served or sleeps. Five are enough: it wakes,
registers, tries and parks, and then sleeps. -/
def advance (q : Queue α) (key : κ) : Nat → Waiter → (Served α κ × Queue α) ⊕ Waiter
  | 0, x => .inr x
  | n + 1, x =>
    match step q key x with
    | .waits y => advance q key n y
    | .served s q => .inl (s, q)
    | .asleep => .inr x

/-- Each of some waiters in turn goes as far as it can. -/
def settleEach (q : Queue α) :
    List (κ × Waiter) → List (Served α κ) × List (κ × Waiter) × Queue α
  | [] => ([], [], q)
  | (k, x) :: r =>
    match advance q k 5 x with
    | .inl (s, q) =>
      let (served, waiting, q) := settleEach q r
      (s :: served, waiting, q)
    | .inr y =>
      let (served, waiting, q) := settleEach q r
      (served, (k, y) :: waiting, q)

/-- **Each waiter in turn goes as far as it can.** -/
def settle (w : Waiting α κ) : List (Served α κ) × Waiting α κ :=
  let (served, waiters, queue) := settleEach w.queue w.waiters
  (served, ⟨queue, waiters⟩)

/-- A waiter is given up. -/
def drop [BEq κ] (w : Waiting α κ) (key : κ) : Waiting α κ :=
  { w with waiters := w.waiters.filter (·.1 != key) }

end Waiting

end Roundtable

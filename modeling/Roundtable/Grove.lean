import Roundtable.Spawn

/-!
# Groves

Spawns and the spawns their workers ask for. A delegation lives inside the execution
that asked for it, so **when an execution is left, every spawn below it is dropped**,
the deepest first, before the worker itself is closed.

A grove keeps every spawn there ever was by its number, and with it the number of the
spawn whose worker asked for it; that number is always smaller.
-/

namespace Roundtable

/-- A spawn and where it grows from. -/
structure Sprout where
  parent : Option Nat
  spawn : Spawn
deriving Repr, Inhabited

/-- Spawns by number. -/
structure Grove where
  sprouts : List Sprout
deriving Repr, Inhabited

namespace Grove

/-- No spawns. -/
def empty : Grove := ⟨[]⟩

/-- The number of spawns there ever were. -/
def size (g : Grove) : Nat := g.sprouts.length

/-- The spawn of a number. -/
def spawn? (g : Grove) (i : Nat) : Option Spawn := (g.sprouts[i]?).map (·.spawn)

/-- The spawn whose worker asked for this one. -/
def parent? (g : Grove) (i : Nat) : Option Nat := (g.sprouts[i]?).bind (·.parent)

/-- Spawn `i` was asked for, directly or not, by the worker of spawn `top`. -/
def isBelow (g : Grove) (top i : Nat) : Bool :=
  match g.parent? i with
  | none => false
  | some p => if p < i then p == top || g.isBelow top p else false
termination_by i

/-- The spawns below one, the deepest first. -/
def below (g : Grove) (top : Nat) : List Nat :=
  (List.range g.size).reverse.filter (g.isBelow top)

/-- Replaces a spawn. -/
def set (g : Grove) (i : Nat) (s : Spawn) : Grove :=
  ⟨g.sprouts.modify i fun x => { x with spawn := s }⟩

/-- What the spawns of a grove do, and which of them. -/
abbrev Acts := List (Nat × SpawnAct)

/-- **A spawn begins**, on its own or asked for by the worker of another. -/
def begin (g : Grove) (parent : Option Nat) (spec : SubAgentSpec) (standard : Span)
    (fresh : String) (now : Instant) : Grove × Acts :=
  let (s, acts) := Spawn.begin spec standard fresh now
  (⟨g.sprouts ++ [⟨parent, s⟩]⟩, acts.map fun a => (g.size, a))

/-- One spawn takes an answer. -/
def receiveAt (g : Grove) (i : Nat) (input : SpawnInput) (now : Instant) :
    Grove × List SpawnAct :=
  match g.spawn? i with
  | none => (g, [])
  | some s =>
    let (s, acts) := s.receive input now
    (g.set i s, acts)

/-- Drops spawns, one after the other. -/
def dropEach (now : Instant) : List Nat → Grove → Grove × Acts
  | [], g => (g, [])
  | i :: rest, g =>
    let (g, acts) := g.receiveAt i .dropped now
    let (g, more) := dropEach now rest g
    (g, (acts.map fun a => (i, a)) ++ more)

/-- **A spawn takes an answer.** Where it leaves its execution, the spawns below it are
dropped. -/
def receive (g : Grove) (i : Nat) (input : SpawnInput) (now : Instant) : Grove × Acts :=
  let (g', acts) := g.receiveAt i input now
  match acts.span (· != .leaveExecution) with
  | (_, []) => (g', acts.map fun a => (i, a))
  | (first, last) =>
    let (g', inner) := dropEach now (g'.below i) g'
    (g', (first.map fun a => (i, a)) ++ inner ++ last.map fun a => (i, a))

end Grove

end Roundtable

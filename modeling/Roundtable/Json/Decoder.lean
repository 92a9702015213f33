import Roundtable.Json.Node

/-!
# Decoders

A decoder says what a reader wants in the place of a value and takes it from a
`Roundtable.Json.Node`, left to right. Each of them fails with **the first problem its
reader meets**: a break in the text where it reaches one, a `mismatch` where the value
is of the wrong kind.

Two things depend on where the value stands, and `Json.Place` holds both: how many
containers may still open before the nesting is too deep, and whether the text around it
was already read through (`settled`), which an event is before its kind is known. In a
settled place no break is left and every problem is a mismatch.

Records are read from objects, and from arrays that list their fields in order.
-/

namespace Roundtable.Json

/-- Where a value stands. -/
structure Place where
  /-- Containers that may still open, and one. -/
  room : Nat
  /-- The text here has been read through. -/
  settled : Bool
deriving DecidableEq, Repr

/-- The place of a whole document. -/
def Place.top : Place := ⟨128, false⟩

/-- The place inside a container that opens here. -/
def Place.enter (p : Place) : Except Fault Place :=
  if p.settled then .ok p
  else if p.room ≤ 1 then .error .malformed
  else .ok { p with room := p.room - 1 }

/-- The fault of a value of the wrong kind: its own, if it has one. -/
def Node.misfit : Node → Fault
  | .broken b => b.read
  | .number none => .malformed
  | .text (.error f) => f
  | _ => .mismatch

/-- Takes a value from a tree. -/
abbrev Decoder (α : Type) := Place → Node → Except Fault α

namespace Decoder

variable {α β : Type}

/-! ### Leaves -/

/-- A text. -/
def text : Decoder String
  | _, .text (.ok s) => .ok s
  | _, v => .error v.misfit

/-- A truth value. -/
def bool : Decoder Bool
  | _, .bool b => .ok b
  | _, v => .error v.misfit

/-- A whole number below `limit`. -/
def natBelow (limit : Nat) : Decoder Nat
  | _, .number (some (.whole (.ofNat n))) => if n < limit then .ok n else .error .mismatch
  | _, v => .error v.misfit

/-- A whole number of 32 bits. -/
def nat32 : Decoder Nat := natBelow (2 ^ 32)

/-- A whole number of 64 bits. -/
def nat64 : Decoder Nat := natBelow (2 ^ 64)

/-- A value that has to pass a check. -/
def check (d : Decoder α) (f : α → Option β) : Decoder β := fun p v => do
  match f (← d p v) with
  | some b => return b
  | none => .error .mismatch

/-- A value with a change. -/
def map (f : α → β) (d : Decoder α) : Decoder β := fun p v => (d p v).map f

/-- A value or null. -/
def option (d : Decoder α) : Decoder (Option α)
  | _, .null => .ok none
  | p, .broken b => if b.inNull then .error b.read else (d p (.broken b)).map some
  | p, v => (d p v).map some

/-! ### Passing over a value -/

mutual

/-- The first break in a value that nobody reads. -/
def skip : Node → Except Fault Unit
  | .broken b => .error b.skipped
  | .array items => skipItems items
  | .object fields => skipFields fields
  | _ => .ok ()

/-- The first break in items nobody reads. -/
def skipItems : Items → Except Fault Unit
  | .closed => .ok ()
  | .broken f => .error f
  | .item v r => do skip v; skipItems r

/-- The first break in fields nobody reads. -/
def skipFields : Fields → Except Fault Unit
  | .closed => .ok ()
  | .broken f => .error f
  | .brokenKey _ _ f => .error f
  | .field _ v r => do skip v; skipFields r

end

/-! ### Any value -/

mutual

/-- Any value, with the fields of objects in order and the last of each key. -/
def any (p : Place) : Node → Except Fault Json
  | .broken b => .error b.read
  | .null => .ok .null
  | .bool b => .ok (.bool b)
  | .number (some n) => .ok (.number n)
  | .number none => .error .malformed
  | .text s => s.map .text
  | .array items => do
    let p ← p.enter
    return .array (← anyItems p items)
  | .object fields => do
    let p ← p.enter
    return Json.ofFields (← anyFields p fields)

/-- The items of an array. -/
def anyItems (p : Place) : Items → Except Fault (List Json)
  | .closed => .ok []
  | .broken f => .error f
  | .item v r => do
    let v ← any p v
    return v :: (← anyItems p r)

/-- The fields of an object as they stand in the text. -/
def anyFields (p : Place) : Fields → Except Fault (List (String × Json))
  | .closed => .ok []
  | .broken f => .error f
  | .brokenKey f _ _ => .error f
  | .field k v r => do
    let k ← k
    let v ← any p v
    return (k, v) :: (← anyFields p r)

end

/-! ### Lists -/

/-- The items of a list. -/
def items (d : Decoder α) (p : Place) : Items → Except Fault (List α)
  | .closed => .ok []
  | .broken f => .error f
  | .item v r => do
    let v ← d p v
    return v :: (← items d p r)

/-- A list. -/
def list (d : Decoder α) : Decoder (List α)
  | p, .array is => do items d (← p.enter) is
  | _, v => .error v.misfit

/-- The fields of an object whose keys are data, as they stand in the text. -/
def pairs (d : Decoder α) (p : Place) : Fields → Except Fault (List (String × α))
  | .closed => .ok []
  | .broken f => .error f
  | .brokenKey f _ _ => .error f
  | .field k v r => do
    let k ← k
    let v ← d p v
    return (k, v) :: (← pairs d p r)

/-- An object whose keys are data. -/
def dictionary (d : Decoder α) : Decoder (List (String × α))
  | p, .object fs => do pairs d (← p.enter) fs
  | _, v => .error v.misfit

/-! ### Choices of names -/

/-- What may stand behind the value of a choice that was written as an object. -/
def choiceEnd : Fields → Except Fault Unit
  | .closed => .ok ()
  | .broken f => .error f
  | _ => .error .malformed

/-- The value of a name that carries nothing. -/
def nothing (p : Place) : Node → Except Fault Unit
  | .null => .ok ()
  | .object .closed => if p.settled then .ok () else .error .mismatch
  | v => .error v.misfit

/-- A name, alone or as the key of an object; `read` takes what the name carries, and
`alone` is its meaning when it stands alone. -/
def choice (read : String → Except Fault (Decoder α)) (alone : String → Except Fault α) :
    Decoder α
  | _, .text s => do alone (← s)
  | p, .object fields => do
    let p ← p.enter
    match fields with
    | .field k v r =>
      if p.settled then
        match r with
        | .closed => do (← read (← k)) p v
        | _ => .error .mismatch
      else do
        let a ← (← read (← k)) p v
        choiceEnd r
        return a
    | .brokenKey _ f _ => .error f
    | .closed => .error (if p.settled then .mismatch else .malformed)
    | .broken f => .error f
  | p, .broken b => if p.settled then .error .mismatch else .error b.named
  | p, _ => .error (if p.settled then .mismatch else .malformed)

/-- One of some names. -/
def name (meaning : String → Option α) : Decoder α :=
  let look (s : String) : Except Fault α :=
    match meaning s with
    | some a => .ok a
    | none => .error .mismatch
  choice (fun s => do let a ← look s; return fun p v => (nothing p v).map fun _ => a) look

/-! ### Records -/

/-- What happens when a field is missing. -/
inductive Presence
  | required
  /-- It may be missing from objects. -/
  | optional
  /-- It may be missing from objects and from the end of arrays. -/
  | defaulted
deriving DecidableEq, Repr

/-- A field of a record: its name, and how it is read into the record. -/
structure Field (α : Type) where
  name : String
  presence : Presence
  read : Place → Node → Except Fault (α → α)

/-- A field from a decoder and a way to set it. -/
def Field.of (name : String) (d : Decoder β) (set : β → α → α) (presence : Presence) :
    Field α :=
  ⟨name, presence, fun p v => (d p v).map set⟩

/-- A field that must be there. -/
def Field.required (name : String) (d : Decoder β) (set : β → α → α) : Field α :=
  .of name d set .required

/-- A field with a default. -/
def Field.defaulted (name : String) (d : Decoder β) (set : β → α → α) : Field α :=
  .of name d set .defaulted

/-- Reads the fields of an object into `acc`; `seen` are the names that stood in front. -/
def object (fields : List (Field α)) (p : Place) :
    (seen : List String) → (acc : α) → Fields → Except Fault α
  | seen, acc, .closed =>
    if fields.all fun f => f.presence != .required || seen.contains f.name then .ok acc
    else .error .mismatch
  | _, _, .broken f => .error f
  | _, _, .brokenKey f _ _ => .error f
  | seen, acc, .field k v r => do
    let k ← k
    match fields.find? (·.name == k) with
    | none => do
      skip v
      object fields p seen acc r
    | some f =>
      if seen.contains k then .error .mismatch
      else do
        let set ← f.read p v
        object fields p (k :: seen) (set acc) r

/-- Reads the fields of a record from the items of an array. -/
def positional (p : Place) : List (Field α) → (acc : α) → Items → Except Fault α
  | [], acc, .closed => .ok acc
  | [], _, .broken f => .error f
  | [], _, .item _ _ => .error (if p.settled then .mismatch else .malformed)
  | f :: fs, acc, .closed =>
    if f.presence == .defaulted then positional p fs acc .closed else .error .mismatch
  | _ :: _, _, .broken f => .error f
  | f :: fs, acc, .item v r => do
    let set ← f.read p v
    positional p fs (set acc) r

/-- A record, from an object or from an array of its fields. Every field must set its
own part of `blank`. -/
def record (blank : α) (fields : List (Field α)) : Decoder α
  | p, .object fs => do object fields (← p.enter) [] blank fs
  | p, .array is => do positional (← p.enter) fields blank is
  | _, v => .error v.misfit

/-! ### Records that name their own kind -/

/-- Reads through the fields of an object and takes its kind from the field `tag`. -/
def taggedFields {κ : Type} (tag : String) (meaning : String → Option κ) (p : Place) :
    (kind : Option κ) → Fields → Except Fault κ
  | some kind, .closed => .ok kind
  | none, .closed => .error .mismatch
  | _, .broken f => .error f
  | _, .brokenKey f _ _ => .error f
  | kind, .field k v r => do
    if (← k) = tag then
      if kind.isSome then .error .mismatch
      else do
        let kind ← check text meaning p v
        taggedFields tag meaning p (some kind) r
    else do
      let _ ← any p v
      taggedFields tag meaning p kind r

/-- A record that tells its kind in the field `tag`, or in the first item of an array.
The whole of it is read through before the fields of its kind are looked at. -/
def tagged {κ : Type} (tag : String) (meaning : String → Option κ)
    (fields : κ → Decoder α) : Decoder α
  | p, .object fs => do
    let kind ← taggedFields tag meaning (← p.enter) none fs
    fields kind ⟨0, true⟩ (.object fs)
  | p, .array .closed => do
    let _ ← p.enter
    .error .mismatch
  | p, .array (.broken f) => do
    let _ ← p.enter
    .error f
  | p, .array (.item v r) => do
    let p ← p.enter
    let kind ← check text meaning p v
    let _ ← anyItems p r
    fields kind ⟨0, true⟩ (.array r)
  | _, v => .error v.misfit

end Decoder

/-- Reads a whole text: the value first, then that nothing follows it. -/
def decode {α : Type} (d : Decoder α) (text : String) : Except Fault α := do
  let (v, trailing) := document text.toList
  let a ← d .top v
  if trailing then .error .malformed else return a

end Roundtable.Json

import Roundtable.Yaml.Document
import Roundtable.Yaml.Meaning

/-!
# Taking values from YAML

What a scalar means depends on what is wanted in its place: `1` is a number where a number
is wanted and a text where a text is. Texts may be written in any style, numbers only
plainly. **An empty plain scalar is an empty mapping** where a mapping is wanted, so the
head of a section may stand without a body.

All readers answer with the value or with nothing.
-/

namespace Roundtable.Yaml

/-- The tag of whole numbers. -/
def intTag : String := "tag:yaml.org,2002:int"

/-- The tag of the null value. -/
def nullTag : String := "tag:yaml.org,2002:null"

/-- Takes a value from a node of a document. -/
abbrev Decoder (α : Type) := Document → Node → Option α

/-- The node itself, or the one an alias stands for. -/
def Node.resolve? (d : Document) : Node → Option Node
  | .alias number => d.target? number
  | v => some v

namespace Decoder

variable {α β : Type}

/-- A text: any scalar. -/
def text : Decoder String := fun d v => do
  match ← v.resolve? d with
  | .scalar s _ _ => some s
  | _ => none

/-- A whole number below `limit`, written plainly, or in a literal block that says so. -/
def natBelow (limit : Nat) : Decoder Nat := fun d v => do
  match ← v.resolve? d with
  | .scalar s .plain _ => wholeBelow? limit s
  | .scalar s .literal tag => if tag == some intTag then wholeBelow? limit s else none
  | _ => none

/-- A value that has to pass a check. -/
def check (r : Decoder α) (f : α → Option β) : Decoder β := fun d v => (r d v).bind f

/-- Whether a node is null; none when its tag says so and its text does not. -/
def isNull? : Node → Option Bool
  | .scalar s .plain none => some (s.isEmpty || isNullWord s)
  | .scalar s .plain (some tag) =>
    if tag == nullTag then (if isNullWord s then some true else none) else some false
  | _ => some false

/-- A value or null. -/
def option (r : Decoder α) : Decoder (Option α) := fun d v => do
  let v ← v.resolve? d
  if ← isNull? v then return none else return some (← r d v)

/-- The fields of a mapping; an empty plain scalar has none. -/
def fields? : Node → Option (List (Node × Node))
  | .mapping fields _ => some fields
  | .scalar "" .plain _ => some []
  | _ => none

/-- A mapping from names to values, as it is written. -/
def pairs (r : Decoder α) : Decoder (List (String × α)) := fun d v => do
  (← fields? (← v.resolve? d)).mapM fun (k, v) => do return (← text d k, ← r d v)

/-- The name a tag of the document's own gives. -/
def tagName (tag : String) : String :=
  match tag.toList with
  | '!' :: r => String.ofList r
  | _ => tag

/-- One of some names: the text of a scalar, or the tag of nothing. -/
def name (meaning : String → Option α) : Decoder α := fun d v => do
  match ← v.resolve? d with
  | .scalar s _ none => meaning s
  | .scalar s style (some tag) => do
    let a ← meaning (tagName tag)
    if style == .plain && (s.isEmpty || isNullWord s) then some a else none
  | _ => none

/-! ### Records -/

/-- A field of a record: its name, whether it may be missing, and how it is read into the
record. -/
structure Field (α : Type) where
  name : String
  optional : Bool
  read : Document → Node → Option (α → α)

/-- A field that must be there. -/
def Field.required (name : String) (r : Decoder β) (set : β → α → α) : Field α :=
  ⟨name, false, fun d v => (r d v).map set⟩

/-- A field with a default. -/
def Field.defaulted (name : String) (r : Decoder β) (set : β → α → α) : Field α :=
  ⟨name, true, fun d v => (r d v).map set⟩

/-- Reads fields into `acc`; `seen` are the names that stood in front. -/
def readFields (fields : List (Field α)) (d : Document) :
    (seen : List String) → (acc : α) → List (Node × Node) → Option α
  | seen, acc, [] =>
    if fields.all fun f => f.optional || seen.contains f.name then some acc else none
  | seen, acc, (k, v) :: r => do
    let k ← text d k
    match fields.find? (·.name == k) with
    | none => readFields fields d seen acc r
    | some f =>
      if seen.contains k then none
      else readFields fields d (k :: seen) ((← f.read d v) acc) r

/-- A record, from a mapping of its fields. Unknown fields are passed over, and no field
may stand twice. -/
def record (blank : α) (fields : List (Field α)) : Decoder α := fun d v => do
  readFields fields d [] blank (← fields? (← v.resolve? d))

end Decoder

/-- Reads a text that holds one document. -/
def decode? {α : Type} (r : Decoder α) (text : String) : Option α := do
  let d ← Document.ofText? text
  r d d.root

end Roundtable.Yaml

import Roundtable.Number.Binary64

/-!
# JSON values

What a JSON text says. A number is a whole number where 64 bits hold it and was
written as one, and a binary floating point number otherwise. The fields of an object
stand in the order in which they are written. For records that is the order of their
parts; for objects whose keys are data it is the order of the keys, each key once, and
`Json.ofFields` brings any list of fields into that form: a later field replaces an
earlier one of its key.
-/

namespace Roundtable

/-- A JSON number: a whole number of 64 bits with or without sign, or a binary one. -/
inductive Json.Number
  | whole (n : Int)
  | real (x : Binary64)
deriving DecidableEq, Repr, Inhabited

/-- A JSON value. -/
inductive Json
  | null
  | bool (b : Bool)
  | number (n : Json.Number)
  | text (s : String)
  | array (items : List Json)
  | object (fields : List (String × Json))
deriving Repr, Inhabited

namespace Json

/-- A whole number. -/
def nat (n : Nat) : Json := .number (.whole n)

/-- A text, or null when there is none. -/
def textOrNull : Option String → Json
  | some s => .text s
  | none => .null

/-- Puts a field in the place of its key, instead of a field of the same key. -/
def insertField {α : Type} (key : String) (value : α) : List (String × α) → List (String × α)
  | [] => [(key, value)]
  | (k, v) :: r =>
    if key = k then (key, value) :: r
    else if key < k then (key, value) :: (k, v) :: r
    else (k, v) :: insertField key value r

/-- Fields in the order of their keys; of two fields of one key the last counts. -/
def sortFields {α : Type} (fields : List (String × α)) : List (String × α) :=
  fields.foldl (fun acc (k, v) => insertField k v acc) []

/-- An object with the fields in the order of their keys. -/
def ofFields (fields : List (String × Json)) : Json := .object (sortFields fields)

/-- The value of a field; `none` for other values than objects. -/
def field? (key : String) : Json → Option Json
  | .object fields => fields.lookup key
  | _ => none

/-- The value is null. -/
def isNull : Json → Bool
  | .null => true
  | _ => false

end Json

end Roundtable

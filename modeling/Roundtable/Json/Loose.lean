import Roundtable.Json.Value

/-!
# Loose reading

Looking into JSON that was written for the occasion, where every field may be left out:
what is absent or of another kind reads as nothing, and a wanted value as the empty one.
-/

namespace Roundtable.Json.Loose

/-- A field, null when absent. -/
def get (j : Json) (key : String) : Json := (j.field? key).getD .null

/-- A text, or none. -/
def text? : Json → Option String
  | .text s => some s
  | _ => none

/-- A text field, or none. -/
def str? (j : Json) (key : String) : Option String := text? (get j key)

/-- A text field, empty when absent. -/
def str (j : Json) (key : String) : String := (str? j key).getD ""

/-- A natural number, or none. -/
def nat? : Json → Option Nat
  | .number (.whole (.ofNat n)) => some n
  | _ => none

/-- A number field, or none. -/
def optNat (j : Json) (key : String) : Option Nat := nat? (get j key)

/-- A number field, zero when absent. -/
def nat (j : Json) (key : String) : Nat := (optNat j key).getD 0

/-- A truth field, with its value when absent. -/
def flagOr (j : Json) (key : String) (absent : Bool) : Bool :=
  match get j key with
  | .bool b => b
  | _ => absent

/-- A truth field, false when absent. -/
def flag (j : Json) (key : String) : Bool := flagOr j key false

/-- The items of a list. -/
def items : Json → List Json
  | .array xs => xs
  | _ => []

/-- A list field, empty when absent. -/
def list (j : Json) (key : String) : List Json := items (get j key)

/-- The fields of an object. -/
def fields : Json → List (String × Json)
  | .object fs => fs
  | _ => []

end Roundtable.Json.Loose

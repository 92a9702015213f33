import Roundtable.Text.Split

/-!
# Paths

Names of files as texts. A path is a list of parts between slashes; it starts at the
root if it starts with a slash and at the working directory otherwise.
-/

namespace Roundtable.Path

/-- The parts between slashes; several slashes count as one. -/
def parts (path : String) : List String :=
  ((Text.pieces '/' path.toList).filter (!·.isEmpty)).map String.ofList

/-- The path starts at the root. -/
def isAbsolute (path : String) : Bool := path.toList.head? == some '/'

/-- The path of `name` inside the directory `base`. -/
def join (base name : String) : String :=
  if isAbsolute name then name
  else if base.isEmpty || base.toList.getLast? == some '/' then base ++ name
  else base ++ "/" ++ name

/-- Drops slashes and lone dots from the front. -/
def trimFront : List Char → List Char
  | '/' :: r => trimFront r
  | ['.'] => []
  | '.' :: '/' :: r => trimFront r
  | r => r

/-- What stands below the part `~` that the path starts with, if it starts with it. -/
def belowHome? (path : String) : Option String :=
  match path.toList with
  | ['~'] => some ""
  | '~' :: '/' :: r =>
    let r := trimFront r
    -- Slashes and lone dots at the end are dropped too, so the text is turned around.
    some (String.ofList (trimFront r.reverse).reverse)
  | _ => none

end Roundtable.Path

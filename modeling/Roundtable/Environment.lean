/-!
# The environment of a process

What a process finds around it besides files: its home directory, which may be missing, and its
variables.
-/

namespace Roundtable

/-- A home directory, if there is one, and variables with their values. -/
structure Environment where
  home : Option String
  «variables» : List (String × String)
deriving Repr, Inhabited

/-- The value of a variable, if it is set. -/
def Environment.lookup (e : Environment) (name : String) : Option String :=
  e.«variables».lookup name

end Roundtable

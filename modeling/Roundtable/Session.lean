import Roundtable.Text.Blank
import Roundtable.Text.Split

/-!
# Sessions

Every piece of work runs in a session of its own, and a session that was derived
from another carries it in its text:

    parent--sub_label_suffix

so **the text alone tells the ancestry**. Labels are cleaned of the two hyphens the
marker starts with and suffixes of the underscore that ends a label, which keeps the
last marker of a text the border between parent and child; a parent may hold any
number of markers itself.

Walking up ends because a parent is strictly shorter than its child
(`SessionId.length_lt_of_parent?`), whatever text the session has.
-/

namespace Roundtable

/-- A session, told by its text. -/
structure SessionId where
  text : String
deriving DecidableEq, Repr, Inhabited

namespace SessionId

/-- What stands between a parent and the label of its child. -/
def marker : List Char := ['-', '-', 's', 'u', 'b', '_']

/-- The label of a session whose label was blank. -/
def genericLabel : List Char := ['g', 'e', 'n', 'e', 'r', 'i', 'c']

/-- Characters a path cannot hold on every system. -/
def pathHostile : List Char := ['/', '\\', ':', '*', '?', '"', '<', '>', '|']

/-! ### Cleaning labels and suffixes -/

/-- A character as labels hold it. -/
def labelChar (c : Char) : Char := if isBlank c || pathHostile.contains c then '_' else c

/-- Keeps one hyphen of each run; `after` tells whether a hyphen stands in front. -/
def squeezeHyphens (after : Bool) : List Char → List Char
  | [] => []
  | c :: r =>
    if c = '-' then
      if after then squeezeHyphens true r else c :: squeezeHyphens true r
    else c :: squeezeHyphens false r

/-- **The label as it stands in a session**: trimmed, blanks and path characters as
underscores, no two hyphens in a row, and never empty. -/
def cleanLabel (label : List Char) : List Char :=
  let body := Text.trim label
  if body.isEmpty then genericLabel else squeezeHyphens false (body.map labelChar)

/-- A character as suffixes hold it. -/
def suffixChar (c : Char) : Char := if c = '_' || isBlank c then '-' else c

/-- **The suffix as it stands in a session**, or none when nothing is left of it. -/
def cleanSuffix? (suffix : List Char) : Option (List Char) :=
  let body := (Text.trim suffix).map suffixChar
  if body.isEmpty then none else some body

/-! ### Deriving and reading back -/

/-- The text of a child. -/
def childText (parent label suffix : List Char) : List Char :=
  parent ++ marker ++ label ++ ['_'] ++ suffix

/-- A child of `parent`. With no suffix, or one that is blank, `fresh` is used. -/
def derive (parent : SessionId) (label : String) (suffix : Option String) (fresh : String) :
    SessionId :=
  let tail := ((suffix.bind fun s => cleanSuffix? s.toList).getD fresh.toList)
  ⟨String.ofList (childText parent.text.toList (cleanLabel label.toList) tail)⟩

/-- Parent, label and suffix of a derived text. -/
def split? (s : List Char) : Option (List Char × List Char × List Char) := do
  let (parent, tail) ← Text.splitLast? marker s
  let (label, suffix) ← Text.splitLast? ['_'] tail
  return (parent, label, suffix)

/-- The session this one was derived from; a root has none. -/
def parent? (s : SessionId) : Option SessionId :=
  (split? s.text.toList).map fun (p, _, _) => ⟨String.ofList p⟩

/-- The clean label this session was derived with. -/
def label? (s : SessionId) : Option String :=
  (split? s.text.toList).map fun (_, l, _) => String.ofList l

/-- The clean suffix this session was derived with. -/
def suffix? (s : SessionId) : Option String :=
  (split? s.text.toList).map fun (_, _, x) => String.ofList x

/-- A session that was derived from none. -/
def isRoot (s : SessionId) : Bool := (split? s.text.toList).isNone

/-- The number of markers in the text. -/
def depth (s : SessionId) : Nat := Text.occurrences marker s.text.toList

/-! ### Ancestry -/

/-- A parent is shorter than its child. -/
theorem length_lt_of_parent? {s p : SessionId} (h : s.parent? = some p) :
    p.text.length < s.text.length := by
  simp only [parent?, split?, Option.map_eq_some_iff, Option.bind_eq_bind] at h
  obtain ⟨⟨a, l, x⟩, hsplit, rfl⟩ := h
  simp only [Option.bind_eq_some_iff, Option.pure_def, Option.some.injEq, Prod.mk.injEq] at hsplit
  obtain ⟨⟨b, tail⟩, hcut, ⟨m, y⟩, -, rfl, -, -⟩ := hsplit
  have := Text.length_front_lt hcut (by decide)
  simpa [String.length_ofList, String.length_toList] using this

/-- The sessions above this one, the nearest first. -/
def ancestors (s : SessionId) : List SessionId :=
  match _h : s.parent? with
  | none => []
  | some p => p :: p.ancestors
termination_by s.text.length
decreasing_by exact length_lt_of_parent? _h

/-- This session was derived from `a`, in one step or in several. -/
def descendsFrom (s a : SessionId) : Bool := s.ancestors.contains a

end SessionId

end Roundtable

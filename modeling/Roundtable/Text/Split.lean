/-!
# Cutting a text at its last separator

`Text.splitLast? sep s` cuts `s` at the last place where `sep` stands in it. What it
returns is put back together by the separator (`append_of_splitLast?`), so the part
in front is strictly shorter than the text as soon as the separator is not empty:
that is what makes walking up a hierarchy of ids end.
-/

namespace Roundtable.Text

/-- Whether the text starts with `sep`. -/
def startsWith (sep s : List Char) : Bool := sep.isPrefixOf s

/-- The text around the last place where `sep` stands. -/
def splitLast? (sep : List Char) : List Char → Option (List Char × List Char)
  | [] => if sep.isEmpty then some ([], []) else none
  | c :: r =>
    match splitLast? sep r with
    | some (front, back) => some (c :: front, back)
    | none => if startsWith sep (c :: r) then some ([], (c :: r).drop sep.length) else none

/-- The number of places where `sep` starts. -/
def occurrences (sep : List Char) : List Char → Nat
  | [] => 0
  | c :: r => (if startsWith sep (c :: r) then 1 else 0) + occurrences sep r

/-- A text that starts with `sep` is `sep` and the rest. -/
theorem append_drop_of_startsWith {sep s : List Char} (h : startsWith sep s = true) :
    sep ++ s.drop sep.length = s := by
  obtain ⟨t, rfl⟩ := List.isPrefixOf_iff_prefix.mp h
  simp

/-- Nothing is lost by the cut. -/
theorem append_of_splitLast? {sep s front back : List Char}
    (h : splitLast? sep s = some (front, back)) : front ++ sep ++ back = s := by
  induction s generalizing front back with
  | nil =>
    simp only [splitLast?] at h
    split at h
    · simp_all
    · simp at h
  | cons c r ih =>
    simp only [splitLast?] at h
    split at h
    · next f b hr =>
      simp only [Option.some.injEq, Prod.mk.injEq] at h
      obtain ⟨rfl, rfl⟩ := h
      simpa using ih hr
    · split at h
      · next hs =>
        simp only [Option.some.injEq, Prod.mk.injEq] at h
        obtain ⟨rfl, rfl⟩ := h
        simpa using append_drop_of_startsWith hs
      · simp at h

/-- The part in front of a separator that is not empty is shorter than the text. -/
theorem length_front_lt {sep s front back : List Char}
    (h : splitLast? sep s = some (front, back)) (hsep : 0 < sep.length) :
    front.length < s.length := by
  have := congrArg List.length (append_of_splitLast? h)
  simp only [List.length_append] at this
  omega

/-- The pieces of a text between the places where `c` stands; a text without it is
one piece. -/
def pieces (c : Char) : List Char → List (List Char)
  | [] => [[]]
  | d :: r =>
    if d = c then [] :: pieces c r
    else match pieces c r with
      | [] => [[d]]
      | p :: ps => (d :: p) :: ps

/-- Every place where `old` stands, read from the left without overlap, is replaced
by `new`. The count is a bound on the steps; the length of the text suffices. -/
def replaceWithin (old new : List Char) : Nat → List Char → List Char
  | 0, s => s
  | _ + 1, [] => []
  | n + 1, c :: r =>
    if startsWith old (c :: r) && !old.isEmpty then
      new ++ replaceWithin old new n ((c :: r).drop old.length)
    else c :: replaceWithin old new n r

/-- Every place where `old` stands is replaced by `new`. -/
def replace (old new : String) (s : String) : String :=
  String.ofList (replaceWithin old.toList new.toList s.length s.toList)

/-- The texts with `sep` between any two neighbours. -/
def join (sep : String) (parts : List String) : String := sep.intercalate parts

end Roundtable.Text

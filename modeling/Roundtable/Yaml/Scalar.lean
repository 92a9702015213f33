import Roundtable.Yaml.Cursor

/-!
# YAML scalars

The five ways to write a text: plain, in single or in double quotes, and as a block that
keeps or folds its line breaks. All of them join lines by one rule (`Breaks.joined`): a
single line break is a space, and of several the first is dropped.
-/

namespace Roundtable.Yaml

/-- The way a scalar is written. -/
inductive ScalarStyle
  | plain
  | singleQuoted
  | doubleQuoted
  | literal
  | folded
deriving DecidableEq, Repr, Inhabited

/-- The line breaks between two pieces of a text: the first, and those behind it. -/
structure Breaks where
  first : List Char
  further : List Char

/-- No line breaks. -/
def Breaks.none : Breaks := ⟨[], []⟩

/-- What the breaks leave in the text. -/
def Breaks.joined (b : Breaks) : List Char :=
  if b.first == ['\n'] then (if b.further.isEmpty then [' '] else b.further)
  else b.first ++ b.further

/-- What stands between two pieces of a text. -/
structure Gap where
  /-- White of the line the first piece ends. -/
  white : List Char
  breaks : Breaks
  /-- A line was left. -/
  broken : Bool

/-- Nothing between. -/
def Gap.none : Gap := ⟨[], .none, false⟩

/-- What the gap leaves in the text. -/
def Gap.joined (g : Gap) : List Char := if g.broken then g.breaks.joined else g.white

/-- White and breaks from here on. With a `margin`, a tab left of it is refused in lines
that begin in the gap. The count bounds the steps. -/
def takeGap (margin : Int) : Nat → Gap → Cursor → Option (Gap × Cursor)
  | 0, g, c => some (g, c)
  | n + 1, g, c =>
    match c.rest with
    | [] => some (g, c)
    | ch :: _ =>
      if isWhite ch then
        if g.broken then
          if (c.column : Int) < margin && ch == '\t' then .none
          else takeGap margin n g c.skip
        else takeGap margin n { g with white := g.white ++ [ch] } c.skip
      else if isBreak ch then
        let (b, next) := c.takeBreak
        if g.broken then
          takeGap margin n
            { g with breaks := { g.breaks with further := g.breaks.further ++ b } } next
        else takeGap margin n ⟨[], ⟨b, []⟩, true⟩ next
      else some (g, c)

/-! ### Quoted scalars -/

/-- The character of an escape of one letter. -/
def escaped? : Char → Option Char
  | '0' => some '\x00'
  | 'a' => some '\x07'
  | 'b' => some '\x08'
  | 't' | '\t' => some '\t'
  | 'n' => some '\n'
  | 'v' => some '\x0b'
  | 'f' => some '\x0c'
  | 'r' => some '\r'
  | 'e' => some '\x1b'
  | ' ' => some ' '
  | '"' => some '"'
  | '/' => some '/'
  | '\\' => some '\\'
  | 'N' => some '\u0085'
  | '_' => some '\u00a0'
  | 'L' => some '\u2028'
  | 'P' => some '\u2029'
  | _ => none

/-- The number of digits of an escape by number. -/
def escapeLength? : Char → Option Nat
  | 'x' => some 2
  | 'u' => some 4
  | 'U' => some 8
  | _ => none

/-- The character that some hexadecimal digits number. -/
def numbered? (ds : List Char) : Option Char := do
  let n ← ds.foldlM (fun n d => (hexValue? d).map (n * 16 + ·)) 0
  if (0xD800 ≤ n ∧ n ≤ 0xDFFF) ∨ 0x10FFFF < n then none else return Char.ofNat n

/-- Reads a quoted scalar behind its quote. `acc` is the text so far, the last character
first; `line` tells that a line was left behind an escape. The count bounds the
steps. -/
def takeQuoted (single : Bool) : Nat → (acc : List Char) → Cursor → Option (List Char × Cursor)
  | 0, _, _ => none
  | n + 1, acc, c =>
    if c.atDocumentMark then none
    else
      match c.rest with
      | [] => none
      | ch :: r =>
        if isWhite ch || isBreak ch then do
          let (g, c) ← takeGap (-1) (c.rest.length + 1) .none c
          takeQuoted single n (g.joined.reverse ++ acc) c
        else if single then
          if ch == '\'' then
            match r with
            | '\'' :: _ => takeQuoted single n ('\'' :: acc) (c.skipMany 2)
            | _ => some (acc.reverse, c.skip)
          else takeQuoted single n (ch :: acc) c.skip
        else if ch == '"' then some (acc.reverse, c.skip)
        else if ch == '\\' then
          match r with
          | [] => none
          | e :: ds =>
            if isBreak e then do
              let (_, next) := c.skip.takeBreak
              let (g, next) ← takeGap (-1) (next.rest.length + 1) ⟨[], .none, true⟩ next
              takeQuoted single n (g.joined.reverse ++ acc) next
            else
              match escaped? e, escapeLength? e with
              | some d, _ => takeQuoted single n (d :: acc) (c.skipMany 2)
              | none, some k =>
                if ds.length < k then none
                else do takeQuoted single n ((← numbered? (ds.take k)) :: acc) (c.skipMany (2 + k))
              | none, none => none
        else takeQuoted single n (ch :: acc) c.skip

/-- Reads a quoted scalar, its quote included. -/
def quoted? (single : Bool) (c : Cursor) : Option (String × Cursor) :=
  (takeQuoted single (c.rest.length + 1) [] c.skip).map fun (cs, c) => (String.ofList cs, c)

/-! ### Plain scalars -/

/-- Characters that end a plain scalar inside brackets. -/
def isFlowMark (c : Char) : Bool := c == ',' || c == '[' || c == ']' || c == '\x7b' || c == '\x7d'

/-- A plain scalar ends in front of this text. -/
def endsPlain (flow : Bool) : List Char → Bool
  | [] => true
  | ':' :: r => endsWord r
  | c :: _ => flow && isFlowMark c

/-- A colon that stands wrongly inside brackets. -/
def strayColon (flow : Bool) : List Char → Bool
  | ':' :: c :: _ => flow && (isFlowMark c || c == '?')
  | _ => false

/-- The characters of a plain scalar up to white, the last first. -/
def takePlainWord (flow : Bool) : Nat → (acc : List Char) → Cursor → Option (List Char × Cursor)
  | 0, acc, c => some (acc, c)
  | n + 1, acc, c =>
    match c.rest with
    | [] => some (acc, c)
    | ch :: _ =>
      if isWhite ch || isBreak ch then some (acc, c)
      else if strayColon flow c.rest then none
      else if endsPlain flow c.rest then some (acc, c)
      else takePlainWord flow n (ch :: acc) c.skip

/-- Reads a plain scalar; its lines must be right of `margin`. Tells whether it was left
at the start of a line. -/
def takePlain (flow : Bool) (margin : Int) : Nat → (acc : List Char) → Gap → Cursor →
    Option (List Char × Bool × Cursor)
  | 0, acc, g, c => some (acc, g.broken, c)
  | n + 1, acc, g, c =>
    if c.atDocumentMark || c.isAt '#' then some (acc, g.broken, c)
    else do
      let (word, next) ← takePlainWord flow (c.rest.length + 1) [] c
      let (acc, g) := if word.isEmpty then (acc, g) else (word ++ g.joined.reverse ++ acc, .none)
      if next.holds fun ch => isWhite ch || isBreak ch then
        let (g, next) ← takeGap margin (next.rest.length + 1) g next
        if !flow && (next.column : Int) < margin then return (acc, g.broken, next)
        else takePlain flow margin n acc g next
      else return (acc, g.broken, next)

/-- Reads a plain scalar inside a block of some indentation. -/
def plain? (flow : Bool) (indent : Int) (c : Cursor) : Option (String × Bool × Cursor) :=
  (takePlain flow (indent + 1) (c.rest.length + 1) [] .none c).map fun (cs, broken, c) =>
    (String.ofList cs.reverse, broken, c)

/-! ### Block scalars -/

/-- What happens to the line breaks at the end of a block scalar. -/
inductive Chomping
  | strip
  | clip
  | keep
deriving DecidableEq, Repr

/-- Reads the mark of the line breaks at the end. -/
def chomping? (c : Cursor) : Option (Chomping × Cursor) :=
  match c.peek? with
  | some '+' => some (.keep, c.skip)
  | some '-' => some (.strip, c.skip)
  | _ => none

/-- Reads the digit of the indentation; zero is refused. -/
def indentation? (c : Cursor) : Option (Nat × Cursor) :=
  match c.peek? with
  | some d =>
    if isDigit d then (if d == '0' then none else some (digitValue d, c.skip)) else some (0, c)
  | none => some (0, c)

/-- Reads the head of a block scalar behind its mark: both marks in either order. -/
def blockHead? (c : Cursor) : Option (Chomping × Nat × Cursor) := do
  match chomping? c with
  | some (chomp, c) =>
    let (k, c) ← indentation? c
    return (chomp, k, c)
  | none =>
    let (k, c) ← indentation? c
    if k = 0 then return (.clip, 0, c)
    else
      match chomping? c with
      | some (chomp, c) => return (chomp, k, c)
      | none => return (.clip, k, c)

/-- Empty lines in front of a line of a block scalar: the breaks, the deepest column that
spaces reached, and the place behind. An `indent` of zero is not known yet. -/
def takeBlankLines (indent : Nat) : Nat → (breaks : List Char) → (deepest : Nat) → Cursor →
    Option (List Char × Nat × Cursor)
  | 0, breaks, deepest, c => some (breaks, deepest, c)
  | n + 1, breaks, deepest, c =>
    let spaces := (c.rest.takeWhile (· == ' ')).length
    let c := c.skipMany (if indent = 0 then spaces else min spaces (indent - c.column))
    let deepest := max deepest c.column
    if (indent = 0 || c.column < indent) && c.isAt '\t' then none
    else if c.holds isBreak then
      let (b, c) := c.takeBreak
      takeBlankLines indent n (breaks ++ b) deepest c
    else some (breaks, deepest, c)

/-- The lines of a block scalar from a line that is not empty on. `lead` is the break that
ended the line in front, `blank` the breaks of the empty lines since, `leadWhite` tells
that the line in front started with white. Returns the text, the last first, and the
breaks at its end. -/
def takeBlockLines (keepBreaks : Bool) (indent : Nat) :
    Nat → (acc lead blank : List Char) → (leadWhite : Bool) → Cursor →
    Option (List Char × List Char × List Char × Cursor)
  | 0, acc, lead, blank, _, c => some (acc, lead, blank, c)
  | n + 1, acc, lead, blank, leadWhite, c =>
    if c.column = indent && !c.rest.isEmpty then do
      let white := c.holds isWhite
      let fold := !keepBreaks && lead == ['\n'] && !leadWhite && !white
      let lead := if fold then (if blank.isEmpty then [' '] else []) else lead
      let (line, next) := c.takeWhile (!isBreak ·)
      let (b, next) := next.takeBreak
      let (further, _, next) ← takeBlankLines indent (next.rest.length + 1) [] 0 next
      takeBlockLines keepBreaks indent n
        (line.reverse ++ (blank.reverse ++ (lead.reverse ++ acc))) b further white next
    else some (acc, lead, blank, c)

/-- Reads a block scalar, its mark included, inside a block of some indentation. -/
def block? (keepBreaks : Bool) (parent : Int) (c : Cursor) : Option (String × Cursor) := do
  let (chomp, increment, c) ← blockHead? c.skip
  let c ← c.restOfLine?
  let base := parent.toNat
  let given := if increment = 0 then 0 else base + increment
  let (blank, deepest, c) ← takeBlankLines given (c.rest.length + 1) [] 0 c
  let indent := if given = 0 then max (max deepest (parent + 1).toNat) 1 else given
  let (acc, lead, blank, c) ←
    takeBlockLines keepBreaks indent (c.rest.length + 1) [] [] blank false c
  let ending := match chomp with
    | .strip => []
    | .clip => lead
    | .keep => lead ++ blank
  return (String.ofList (acc.reverse ++ ending), c)

end Roundtable.Yaml

import Roundtable.Yaml.Scalar

/-!
# YAML tokens

The words of a YAML text, with its indentation made explicit: a block opens with a token
and closes with one, as brackets do.

Two things make the cut harder than one look ahead. **A key is known by the colon behind
it**: where a key may stand its place is kept (`PossibleKey`), and when the colon comes
the `key` token goes in there. A key in one line is not looked for in the next, nor beyond
1024 characters. And **indentation counts only outside brackets**, where a block closes as
soon as something starts left of it.
-/

namespace Roundtable.Yaml

/-- A word of a text. -/
inductive Token
  | version (major minor : Nat)
  | handle (name : String) (meaning : String)
  | documentStart
  | documentEnd
  | sequenceStart
  | mappingStart
  | blockEnd
  | flowSequenceStart
  | flowSequenceEnd
  | flowMappingStart
  | flowMappingEnd
  | entry
  | flowEntry
  | key
  | value
  | alias (name : String)
  | anchor (name : String)
  /-- A tag; with an empty handle the name is the whole tag. -/
  | tag (handle : String) (name : String)
  | scalar (text : String) (style : ScalarStyle)
deriving DecidableEq, Repr, Inhabited

/-! ### Names, tags and directives -/

/-- Characters that may follow a name at once. -/
def endsName : List Char → Bool
  | c :: r => endsWord (c :: r) || ['?', ':', ',', ']', '\x7d', '%', '@', '\x60'].contains c
  | [] => true

/-- Reads the name behind the mark of an anchor or an alias. -/
def name? (c : Cursor) : Option (String × Cursor) :=
  let (name, c) := c.skip.takeWhile isNameChar
  if name.isEmpty || !endsName c.rest then none else some (String.ofList name, c)

/-- Characters of a tag; some of them not behind a handle. -/
def isTagChar (bare : Bool) (c : Char) : Bool :=
  isNameChar c ||
    [';', '/', '?', ':', '@', '&', '=', '+', '$', '.', '!', '~', '*', '\'', '(', ')'].contains c ||
    (!bare && [',', '[', ']'].contains c)

/-- Reads one octet written as a percent sign and two digits. -/
def octet? : List Char → Option (Nat × List Char)
  | '%' :: a :: b :: r => do return ((← hexValue? a) * 16 + (← hexValue? b), r)
  | _ => none

/-- Reads octets that continue a character. -/
def furtherOctets? : (count : Nat) → (value : Nat) → List Char → Option (Nat × List Char)
  | 0, value, s => some (value, s)
  | k + 1, value, s => do
    let (o, s) ← octet? s
    if o / 64 = 2 then furtherOctets? k (value * 64 + o % 64) s else none

/-- Reads a character written by its octets: how far the text goes, and the character. -/
def octets? (s : List Char) : Option (Nat × Char) := do
  let (o, r) ← octet? s
  let (count, head) ←
    if o < 128 then some (0, o)
    else if o / 32 = 6 then some (1, o % 32)
    else if o / 16 = 14 then some (2, o % 16)
    else if o / 8 = 30 then some (3, o % 8)
    else none
  let (value, _) ← furtherOctets? count head r
  return ((count + 1) * 3, Char.ofNat value)

/-- Reads the characters of a tag. The count bounds the steps. -/
def takeTag (bare : Bool) : Nat → (acc : List Char) → Cursor → Option (List Char × Cursor)
  | 0, acc, c => some (acc.reverse, c)
  | n + 1, acc, c =>
    match c.peek? with
    | none => some (acc.reverse, c)
    | some ch =>
      if ch == '%' then do
        let (length, ch) ← octets? c.rest
        takeTag bare n (ch :: acc) (c.skipMany length)
      else if isTagChar bare ch then takeTag bare n (ch :: acc) c.skip
      else some (acc.reverse, c)

/-- Reads the characters of a tag. -/
def tagText? (bare : Bool) (c : Cursor) : Option (List Char × Cursor) :=
  takeTag bare (c.rest.length + 1) [] c

/-- Reads a handle: an exclamation mark, perhaps with a name and another mark. -/
def handle? (c : Cursor) : Option (List Char × Cursor) :=
  if !c.isAt '!' then none
  else
    let (name, c) := c.skip.takeWhile isNameChar
    if c.isAt '!' then some ('!' :: name ++ ['!'], c.skip) else some ('!' :: name, c)

/-- Reads a tag. Inside brackets a comma may follow it at once. -/
def tag? (flow : Bool) (c : Cursor) : Option (Token × Cursor) := do
  let (token, c) ←
    if c.rest.take 2 == ['!', '<'] then do
      let (text, c) ← tagText? false (c.skipMany 2)
      if text.isEmpty || !c.isAt '>' then none
      else some (Token.tag "" (String.ofList text), c.skip)
    else do
      let (handle, c) ← handle? c
      if 2 ≤ handle.length && handle.getLast? == some '!' then
        let (text, c) ← tagText? true c
        if text.isEmpty then none
        else some (Token.tag (String.ofList handle) (String.ofList text), c)
      else
        let (text, c) ← tagText? true c
        let text := handle.tail ++ text
        if text.isEmpty then some (Token.tag "" "!", c)
        else some (Token.tag "!" (String.ofList text), c)
  if endsWord c.rest || (flow && c.isAt ',') then some (token, c) else none

/-- Reads a number of at most nine digits. -/
def shortNumber? (c : Cursor) : Option (Nat × Cursor) :=
  let (digits, c) := c.takeWhile isDigit
  if digits.isEmpty || 9 < digits.length then none else some (Numeral.value digits, c)

/-- Reads a directive, to the end of its line. -/
def directive? (c : Cursor) : Option (Token × Cursor) := do
  let (name, c) := c.skip.takeWhile isNameChar
  if name.isEmpty || !endsWord c.rest then none
  else
    let c := c.skipWhile isWhite
    let (token, c) ←
      if name == ['Y', 'A', 'M', 'L'] then do
        let (major, c) ← shortNumber? c
        if !c.isAt '.' then none
        else
          let (minor, c) ← shortNumber? c.skip
          some (Token.version major minor, c)
      else if name == ['T', 'A', 'G'] then do
        let (handle, c) ← handle? c
        if handle ≠ ['!'] && handle.getLast? ≠ some '!' then none
        else if !c.holds isWhite then none
        else
          let (meaning, c) ← tagText? false (c.skipWhile isWhite)
          if meaning.isEmpty || !endsWord c.rest then none
          else some (Token.handle (String.ofList handle) (String.ofList meaning), c)
      else none
    return (token, ← c.restOfLine?)

/-! ### The state of the cut -/

/-- A place where a key may have started. -/
structure PossibleKey where
  /-- Something that starts here must be a key. -/
  required : Bool
  /-- The number of tokens in front. -/
  number : Nat
  place : Cursor

/-- What the cut knows at a place. -/
structure Cut where
  place : Cursor
  /-- The column of the innermost block; none is open below zero. -/
  indent : Int
  /-- The columns of the blocks around it. -/
  outer : List Int
  /-- A key may start here. -/
  keyAllowed : Bool
  /-- The possible key of the innermost brackets, or of the block around all brackets. -/
  possible : Option PossibleKey
  /-- The possible keys around the open brackets, the innermost first. -/
  around : List (Option PossibleKey)
  tokens : Array Token

namespace Cut

/-- Nothing is cut yet. -/
def start (text : List Char) : Cut := ⟨.start text, -1, [], true, none, [], #[]⟩

/-- Brackets are open. -/
def inFlow (s : Cut) : Bool := !s.around.isEmpty

/-- One more token. -/
def push (s : Cut) (t : Token) : Cut := { s with tokens := s.tokens.push t }

/-- A token at an earlier place. -/
def insert (s : Cut) (number : Nat) (t : Token) : Cut :=
  { s with tokens := s.tokens.insertIdxIfInBounds number t }

/-- Passes over white, comments and line breaks. Tabs count as white where no key may
start. The count bounds the steps. -/
def skipWhite : Nat → Cut → Cut
  | 0, s => s
  | n + 1, s =>
    let c := s.place.skipWhile fun ch => ch == ' ' || ((s.inFlow || !s.keyAllowed) && ch == '\t')
    let c := if c.isAt '#' then c.skipWhile (!isBreak ·) else c
    if c.holds isBreak then
      skipWhite n { s with place := c.takeBreak.2, keyAllowed := s.keyAllowed || !s.inFlow }
    else { s with place := c }

/-- A possible key that lies too far back is none; a required one must not. -/
def stale? (c : Cursor) : Option PossibleKey → Option (Option PossibleKey)
  | none => some none
  | some k =>
    if k.place.line < c.line || k.place.index + 1024 < c.index then
      if k.required then none else some none
    else some (some k)

/-- Forgets the possible keys that lie too far back. -/
def forgetStale? (s : Cut) : Option Cut := do
  return { s with possible := ← stale? s.place s.possible,
                  around := ← s.around.mapM (stale? s.place) }

/-- Forgets the possible key here; a required one must not be forgotten. -/
def forgetKey? (s : Cut) : Option Cut :=
  match s.possible with
  | some k => if k.required then none else some { s with possible := none }
  | none => some s

/-- A key may start here. -/
def noteKey? (s : Cut) : Option Cut :=
  if s.keyAllowed then do
    let required := !s.inFlow && s.indent == s.place.column
    let s ← s.forgetKey?
    return { s with possible := some ⟨required, s.tokens.size, s.place⟩ }
  else some s

/-- Opens a block at a column right of the innermost one, its token at `number`. -/
def openBlock (s : Cut) (column number : Nat) (t : Token) : Cut :=
  if !s.inFlow && s.indent < column then
    { s with indent := column, outer := s.indent :: s.outer }.insert number t
  else s

/-- Closes the blocks right of a column; the count bounds them. -/
def closeWithin (column : Int) : Nat → Cut → Cut
  | 0, s => s
  | n + 1, s =>
    if column < s.indent then
      match s.outer with
      | i :: is => closeWithin column n ({ s with indent := i, outer := is }.push .blockEnd)
      | [] => s
    else s

/-- Closes the blocks right of a column, outside brackets. -/
def closeBlocks (s : Cut) (column : Int) : Cut :=
  if s.inFlow then s else closeWithin column s.outer.length s

/-! ### One token -/

/-- A token of one character. -/
def mark (s : Cut) (t : Token) : Cut := { s with place := s.place.skip }.push t

/-- A line that ends or starts documents, or directs the reader. -/
def atMargin? (s : Cut) (read : Cursor → Option (Token × Cursor)) : Option Cut := do
  let s ← (s.closeBlocks (-1)).forgetKey?
  let (t, c) ← read s.place
  return { s with place := c, keyAllowed := false }.push t

/-- An opening bracket. -/
def openFlow? (s : Cut) (t : Token) : Option Cut := do
  let s ← s.noteKey?
  return { s with possible := none, around := s.possible :: s.around, keyAllowed := true }.mark t

/-- A closing bracket. -/
def closeFlow? (s : Cut) (t : Token) : Option Cut := do
  let s ← s.forgetKey?
  let s := match s.around with
    | k :: ks => { s with possible := k, around := ks }
    | [] => s
  return { s with keyAllowed := false }.mark t

/-- A comma between brackets. -/
def flowEntry? (s : Cut) : Option Cut := do
  let s ← s.forgetKey?
  return { s with keyAllowed := true }.mark .flowEntry

/-- A block opens here if none did at this column; something in a block must start where
a key may. -/
def openHere? (s : Cut) (t : Token) : Option Cut :=
  if s.inFlow then some s
  else if s.keyAllowed then some (s.openBlock s.place.column s.tokens.size t)
  else none

/-- The dash of an item. -/
def entry? (s : Cut) : Option Cut := do
  let s ← (← s.openHere? .sequenceStart).forgetKey?
  return { s with keyAllowed := true }.mark .entry

/-- The question mark of a key. -/
def key? (s : Cut) : Option Cut := do
  let s ← (← s.openHere? .mappingStart).forgetKey?
  return { s with keyAllowed := !s.inFlow }.mark .key

/-- The colon of a value: what was possibly a key is one. -/
def value? (s : Cut) : Option Cut :=
  match s.possible with
  | some k =>
    let s := (s.insert k.number .key).openBlock k.place.column k.number .mappingStart
    some ({ s with possible := none, keyAllowed := false }.mark .value)
  | none => do
    let s ← s.openHere? .mappingStart
    return { s with keyAllowed := !s.inFlow }.mark .value

/-- Something a key may start with: a name, a tag or a quoted scalar. -/
def word? (s : Cut) (read : Cursor → Option (Token × Cursor)) : Option Cut := do
  let s ← s.noteKey?
  let (t, c) ← read s.place
  return { s with place := c, keyAllowed := false }.push t

/-- A plain scalar. Behind the end of a line a key may start again. -/
def plain? (s : Cut) : Option Cut := do
  let s ← s.noteKey?
  let (text, broken, c) ← Yaml.plain? s.inFlow s.indent s.place
  return { s with place := c, keyAllowed := broken }.push (.scalar text .plain)

/-- A block scalar. -/
def block? (s : Cut) (style : ScalarStyle) : Option Cut := do
  let s ← s.forgetKey?
  let (text, c) ← Yaml.block? (style == .literal) s.indent s.place
  return { s with place := c, keyAllowed := true }.push (.scalar text style)

/-- The text ends here. -/
def finish? (s : Cut) : Option (Array Token) := do
  let s ← (s.closeBlocks (-1)).forgetKey?
  return s.tokens

/-- Characters no plain scalar starts with, unless a word follows some of them. -/
def isIndicator (c : Char) : Bool :=
  ['-', '?', ':', ',', '[', ']', '\x7b', '\x7d', '#', '&', '*', '!', '|', '>', '\'', '"', '%',
    '@', '\x60'].contains c

/-- The next token, which starts with the character `ch` in front of `r`. -/
def next? (s : Cut) (ch : Char) (r : List Char) : Option Cut :=
  let c := s.place
  if c.column == 0 && ch == '%' then s.atMargin? directive?
  else if c.atMark '-' then s.atMargin? fun c => some (.documentStart, c.skipMany 3)
  else if c.atMark '.' then s.atMargin? fun c => some (.documentEnd, c.skipMany 3)
  else if ch == '-' && endsWord r then s.entry?
  else if ch == '?' && (s.inFlow || endsWord r) then s.key?
  else if ch == ':' && (s.inFlow || endsWord r) then s.value?
  else match ch with
    | '[' => s.openFlow? .flowSequenceStart
    | '\x7b' => s.openFlow? .flowMappingStart
    | ']' => s.closeFlow? .flowSequenceEnd
    | '\x7d' => s.closeFlow? .flowMappingEnd
    | ',' => s.flowEntry?
    | '*' => s.word? fun c => (name? c).map fun (n, c) => (.alias n, c)
    | '&' => s.word? fun c => (name? c).map fun (n, c) => (.anchor n, c)
    | '!' => s.word? (tag? s.inFlow)
    | '\'' => s.word? fun c => (quoted? true c).map fun (t, c) => (.scalar t .singleQuoted, c)
    | '"' => s.word? fun c => (quoted? false c).map fun (t, c) => (.scalar t .doubleQuoted, c)
    | _ =>
      if ch == '|' && !s.inFlow then s.block? .literal
      else if ch == '>' && !s.inFlow then s.block? .folded
      else if !(isIndicator ch || isWhite ch) || ch == '-' ||
          (!s.inFlow && (ch == '?' || ch == ':'))
      then s.plain?
      else none

/-- All tokens from here on. Each takes a character at least; the count bounds them. -/
def rest? : Nat → Cut → Option (Array Token)
  | 0, _ => none
  | n + 1, s => do
    let s ← (skipWhite (s.place.rest.length + 1) s).forgetStale?
    let s := s.closeBlocks s.place.column
    match s.place.rest with
    | [] => s.finish?
    | ch :: r => rest? n (← s.next? ch r)

end Cut

/-- The tokens of a text, without the mark in front that some writers leave. -/
def tokens? (text : String) : Option (Array Token) :=
  let cs := match text.toList with
    | '\ufeff' :: r => r
    | cs => cs
  if cs.any isForbidden then none else (Cut.start cs).rest? (cs.length + 1)

end Roundtable.Yaml

import Roundtable.Text.Numeral

/-!
# A place in a YAML text

The text still to read, and where it starts: how many characters lie in front, in which
line, in which column. The characters YAML tells apart are named here: five characters
break a line, and two are white.
-/

namespace Roundtable.Yaml

/-- A place in a text. -/
structure Cursor where
  rest : List Char
  index : Nat
  line : Nat
  column : Nat
deriving Repr, Inhabited

/-- The characters that end a line. -/
def isBreak (c : Char) : Bool :=
  c == '\n' || c == '\r' || c == '\u0085' || c == '\u2028' || c == '\u2029'

/-- A space or a tab. -/
def isWhite (c : Char) : Bool := c == ' ' || c == '\t'

/-- Letters, digits, hyphens and underscores, as names are made of. -/
def isNameChar (c : Char) : Bool :=
  isDigit c || ('a' ≤ c && c ≤ 'z') || ('A' ≤ c && c ≤ 'Z') || c == '-' || c == '_'

/-- The text ends here, or goes on with a break or white. -/
def endsWord : List Char → Bool
  | [] => true
  | c :: _ => isBreak c || isWhite c

/-- The text ends here, or goes on with a break. -/
def endsLine : List Char → Bool
  | [] => true
  | c :: _ => isBreak c

/-- Characters no text may hold. -/
def isForbidden (c : Char) : Bool :=
  let n := c.toNat
  !(n == 0x09 || n == 0x0A || n == 0x0D || (0x20 ≤ n && n ≤ 0x7E) || n == 0x85 ||
    (0xA0 ≤ n && n ≤ 0xFFFD && n != 0xFEFF) || 0x10000 ≤ n)

namespace Cursor

/-- The start of a text. -/
def start (text : List Char) : Cursor := ⟨text, 0, 0, 0⟩

/-- The next character. -/
def peek? (c : Cursor) : Option Char := c.rest.head?

/-- The next character is `ch`. -/
def isAt (c : Cursor) (ch : Char) : Bool := c.peek? == some ch

/-- The next character satisfies `p`. -/
def holds (c : Cursor) (p : Char → Bool) : Bool := c.peek?.elim false p

/-- One character further. -/
def skip (c : Cursor) : Cursor :=
  match c.rest with
  | [] => c
  | _ :: r => ⟨r, c.index + 1, c.line, c.column + 1⟩

/-- Some characters further in the same line. -/
def skipMany (c : Cursor) (n : Nat) : Cursor :=
  ⟨c.rest.drop n, c.index + n, c.line, c.column + n⟩

/-- The next line, if a break stands here: the break as texts hold it, and the place
behind it. The two characters of a double break count as one. -/
def takeBreak (c : Cursor) : List Char × Cursor :=
  match c.rest with
  | '\r' :: '\n' :: r => (['\n'], ⟨r, c.index + 2, c.line + 1, 0⟩)
  | ch :: r =>
    if ch == '\u2028' || ch == '\u2029' then ([ch], ⟨r, c.index + 1, c.line + 1, 0⟩)
    else if isBreak ch then (['\n'], ⟨r, c.index + 1, c.line + 1, 0⟩)
    else ([], c)
  | [] => ([], c)

/-- The place behind the characters that satisfy `p`; none of them breaks a line. -/
def skipWhile (c : Cursor) (p : Char → Bool) : Cursor :=
  c.skipMany (c.rest.takeWhile p).length

/-- The characters that satisfy `p`, and the place behind them. -/
def takeWhile (c : Cursor) (p : Char → Bool) : List Char × Cursor :=
  let word := c.rest.takeWhile p
  (word, c.skipMany word.length)

/-- A mark of three characters stands alone at the start of a line. -/
def atMark (c : Cursor) (ch : Char) : Bool :=
  c.column == 0 && c.rest.take 3 == [ch, ch, ch] && endsWord (c.rest.drop 3)

/-- A line that starts or ends a document. -/
def atDocumentMark (c : Cursor) : Bool := c.atMark '-' || c.atMark '.'

/-- The place behind white, a comment and a line break; none if something else stands in
the line. -/
def restOfLine? (c : Cursor) : Option Cursor :=
  let c := c.skipWhile isWhite
  let c := if c.isAt '#' then c.skipWhile (!isBreak ·) else c
  if endsLine c.rest then some c.takeBreak.2 else none

end Cursor

end Roundtable.Yaml
